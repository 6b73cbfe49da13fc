import Mathlib.Data.Finset.Card
import Mathlib.Order.Bounds.Basic
import Mathlib.Order.Interval.Finset.Nat
import MatrixOS.VfsEffects

namespace MatrixOS

open ByteMemory Set

/-!
# Descriptors and handles

Every open descriptor behind the standard ones owns one entry of the handle
table of its file system, and every entry in use has such an owner.  Only
opening and closing change the tables; the other calls move positions and
transfer bytes.
-/

/-- The entry of a handle table that the handle leads to is in use. -/
def VfsState.InUse (state : VfsState) : FileOperations → Int → Prop
  | .ramfsOps, handle => ramfsFileOf handle state ≠ none
  | .devfsOps, handle => devfsDeviceOf handle state ≠ 0

/-- The descriptor is open on the file system. -/
def VfsState.OpenOn
    (state : VfsState) (ops : FileOperations) (fd : Nat) : Prop :=
  fd < maxOpenFiles ∧ (state.openFiles fd).refCount ≠ 0 ∧
    ∃ fs, (state.openFiles fd).fs = some fs ∧ fs.ops = ops

/-- One of the two file systems of the kernel. -/
def Filesystem.Known (fs : Filesystem) : Prop :=
  fs = ⟨cstr "ramfs", .ramfsOps⟩ ∨ fs = ⟨cstr "devfs", .devfsOps⟩

/-- The descriptor table and the handle tables of the file systems agree. -/
structure TablesAgree (state : VfsState) : Prop where
  standard : ∀ fd < 3, (state.openFiles fd).fs = none
  opened : ∀ fd, 3 ≤ fd → fd < maxOpenFiles →
    (state.openFiles fd).refCount ≠ 0 →
      (state.openFiles fd).refCount = 1 ∧
        ∃ fs, (state.openFiles fd).fs = some fs ∧ fs.Known
  handles : ∀ ops, BijOn (fun fd => (state.openFiles fd).privateData)
    {fd | state.OpenOn ops fd} {handle | state.InUse ops handle}

/-! ## Calls that keep the tables -/

/-- Two states differ in positions, memory, screen and keyboard at most. -/
structure SameTables (before after : VfsState) : Prop where
  fs : ∀ fd, (after.openFiles fd).fs = (before.openFiles fd).fs
  privateData : ∀ fd,
    (after.openFiles fd).privateData = (before.openFiles fd).privateData
  flags : ∀ fd, (after.openFiles fd).flags = (before.openFiles fd).flags
  refCount : ∀ fd,
    (after.openFiles fd).refCount = (before.openFiles fd).refCount
  ramfsHandles : ∀ handle,
    (after.ramfsHandles handle).file = (before.ramfsHandles handle).file
  devfsHandles : after.devfsHandles = before.devfsHandles
  files : after.files = before.files
  fsList : after.fsList = before.fsList

namespace SameTables

variable {before after last : VfsState}

theorem refl (state : VfsState) : SameTables state state where
  fs := fun _ => rfl
  privateData := fun _ => rfl
  flags := fun _ => rfl
  refCount := fun _ => rfl
  ramfsHandles := fun _ => rfl
  devfsHandles := rfl
  files := rfl
  fsList := rfl

theorem trans
    (first : SameTables before after)
    (second : SameTables after last) :
    SameTables before last where
  fs := fun fd => (second.fs fd).trans (first.fs fd)
  privateData := fun fd => (second.privateData fd).trans (first.privateData fd)
  flags := fun fd => (second.flags fd).trans (first.flags fd)
  refCount := fun fd => (second.refCount fd).trans (first.refCount fd)
  ramfsHandles := fun handle =>
    (second.ramfsHandles handle).trans (first.ramfsHandles handle)
  devfsHandles := second.devfsHandles.trans first.devfsHandles
  files := second.files.trans first.files
  fsList := second.fsList.trans first.fsList

theorem withMem (state : VfsState) (mem : Memory) :
    SameTables state (state.withMem mem) :=
  { refl state with }

theorem withKeyboard (state : VfsState) (keyboard : Keyboard) :
    SameTables state (state.withKeyboard keyboard) :=
  { refl state with }

theorem withScreen (state : VfsState) (screen : Screen) :
    SameTables state (state.withScreen screen) :=
  { refl state with }

/-- A handle of ramfs moves. -/
theorem withRamfsPos (state : VfsState) (handle pos : Nat) :
    SameTables state (state.withRamfsHandle handle
      { state.ramfsHandles handle with pos := pos }) :=
  { refl state with
    ramfsHandles := by
      intro other
      by_cases same : other = handle
      · simp [same]
      · simp [same] }

/-- A descriptor moves. -/
theorem withPos (state : VfsState) (fd pos : Nat) :
    SameTables state (state.withOpenFile fd
      { state.openFiles fd with pos := pos }) := by
  have kept : ∀ {Field : Type} (field : FileHandle → Field),
      field { state.openFiles fd with pos := pos } =
        field (state.openFiles fd) →
      ∀ other, field ((state.withOpenFile fd
          { state.openFiles fd with pos := pos }).openFiles other) =
        field (state.openFiles other) := by
    intro Field field unchanged other
    by_cases same : other = fd
    · rw [same, VfsState.withOpenFile_openFiles, Function.update_self]
      exact unchanged
    · rw [VfsState.withOpenFile_openFiles, Function.update_of_ne same]
  exact { refl state with
    fs := kept FileHandle.fs rfl
    privateData := kept FileHandle.privateData rfl
    flags := kept FileHandle.flags rfl
    refCount := kept FileHandle.refCount rfl }

theorem inUse_iff
    (same : SameTables before after)
    (ops : FileOperations)
    (handle : Int) :
    after.InUse ops handle ↔ before.InUse ops handle := by
  cases ops with
  | ramfsOps =>
      simp only [VfsState.InUse, ramfsFileOf, same.ramfsHandles]
  | devfsOps =>
      simp only [VfsState.InUse, devfsDeviceOf, same.devfsHandles]

theorem openOn_iff
    (same : SameTables before after)
    (ops : FileOperations)
    (fd : Nat) :
    after.OpenOn ops fd ↔ before.OpenOn ops fd := by
  simp only [VfsState.OpenOn, same.refCount, same.fs]

/-- The tables still agree. -/
theorem agree
    (same : SameTables before after)
    (tables : TablesAgree before) :
    TablesAgree after where
  standard := by
    intro fd below
    rw [same.fs]
    exact tables.standard fd below
  opened := by
    intro fd above below used
    rw [same.refCount] at used ⊢
    rw [same.fs]
    exact tables.opened fd above below used
  handles := by
    intro ops
    simp only [same.privateData, same.inUse_iff, same.openOn_iff]
    exact tables.handles ops

end SameTables

/-! ### Transfers, seeking and requests -/

namespace FileOperations

variable (ops : FileOperations) (state : VfsState)

theorem read_sameTables (handle : Int) (buf count : Nat) :
    SameTables state (ops.read handle buf count state).2 := by
  obtain ⟨mem, _, ⟨keyboard, result⟩ | ⟨_, _, pos, result⟩⟩ :=
    ops.read_effect state handle buf count
  · rw [result]
    exact (SameTables.withKeyboard state _).trans (.withMem _ _)
  · rw [result]
    apply SameTables.trans (SameTables.withMem state mem)
    exact SameTables.withRamfsPos (state.withMem mem) handle.toNat pos

theorem write_sameTables (handle : Int) (buf count : Nat) :
    SameTables state (ops.write handle buf count state).2 := by
  obtain ⟨screen, result⟩ := ops.write_effect state handle buf count
  rw [result]
  exact .withScreen state screen

theorem seek_sameTables (handle offset whence : Int) :
    SameTables state (ops.seek handle offset whence state).2 := by
  rcases ops.seek_effect state handle offset whence with
    result | ⟨_, _, pos, result⟩
  · rw [result]
    exact .refl state
  · rw [result]
    exact .withRamfsPos state handle.toNat pos

theorem ioctl_sameTables (handle request : Int) (argp : Nat) :
    SameTables state (ops.ioctl handle request argp state).2 := by
  obtain ⟨screen, mem, _, result⟩ := ops.ioctl_effect state handle request argp
  rw [result]
  exact (SameTables.withScreen state screen).trans (.withMem _ mem)

theorem stat_sameTables (path : List UInt8) (stat : Nat) :
    SameTables state (ops.stat path stat state).2 := by
  obtain ⟨mem, _, result⟩ := ops.stat_effect state path stat
  rw [result]
  exact .withMem state mem

end FileOperations

theorem advance_sameTables (fd : Nat) (result : Int) (state : VfsState) :
    SameTables state (advance fd result state) := by
  rw [advance]
  split
  · exact SameTables.withPos state fd _
  · exact .refl state

section Calls

variable (state : VfsState)

theorem vfsRead_sameTables (fd : Int) (buf count : Nat) :
    SameTables state (vfsRead fd buf count state).2 := by
  simp only [vfsRead]
  split
  · exact .refl state
  · split
    · exact .refl state
    · split
      · exact .refl state
      · rename_i fs _
        exact (fs.ops.read_sameTables state _ buf count).trans
          (advance_sameTables _ _ _)

theorem vfsWrite_sameTables (fd : Int) (buf count : Nat) :
    SameTables state (vfsWrite fd buf count state).2 := by
  simp only [vfsWrite]
  split
  · exact .refl state
  · split
    · exact .refl state
    · split
      · exact .withScreen state _
      · split
        · exact .refl state
        · rename_i fs _
          exact (fs.ops.write_sameTables state _ buf count).trans
            (advance_sameTables _ _ _)

theorem vfsSeek_sameTables (fd offset whence : Int) :
    SameTables state (vfsSeek fd offset whence state).2 := by
  simp only [vfsSeek]
  split
  · exact .refl state
  · split
    · exact .refl state
    · rename_i fs _
      exact fs.ops.seek_sameTables state _ offset whence

theorem vfsIoctl_sameTables (fd request : Int) (argp : Nat) :
    SameTables state (vfsIoctl fd request argp state).2 := by
  simp only [vfsIoctl]
  split
  · exact .refl state
  · split
    · exact .refl state
    · rename_i fs _
      exact fs.ops.ioctl_sameTables state _ request argp

theorem vfsStat_sameTables (path : Option (List UInt8)) (stat : Nat) :
    SameTables state (vfsStat path stat state).2 := by
  cases path with
  | none => exact .refl state
  | some path =>
      simp only [vfsStat]
      split
      · exact .refl state
      · split
        · exact .refl state
        · rename_i fs _
          exact fs.ops.stat_sameTables state path stat

end Calls

/-! ## Opening and closing -/

section Update

variable {α β : Type} [DecidableEq α] {f : α → β} {s : Set α} {t : Set β}
variable {a : α} {b : β}

/-- A bijection does not depend on values outside its domain. -/
theorem bijOn_update
    (bijection : BijOn f s t)
    (outside : a ∉ s) :
    BijOn (Function.update f a b) s t :=
  bijection.congr fun _ member =>
    (Function.update_of_ne (ne_of_mem_of_not_mem member outside) b f).symm

theorem bijOn_update_insert
    (bijection : BijOn f s t)
    (outside : a ∉ s)
    (fresh : b ∉ t) :
    BijOn (Function.update f a b) (insert a s) (insert b t) := by
  have extended := (bijOn_update (b := b) bijection outside).insert
    (a := a) (by rwa [Function.update_self])
  rwa [Function.update_self] at extended

theorem bijOn_update_remove
    (bijection : BijOn f s t)
    (inside : a ∈ s) :
    BijOn (Function.update f a b) (s \ {a}) (t \ {f a}) :=
  bijOn_update (bijection.sdiff_singleton inside) (by simp)

end Update

/-- The handle of one file system comes into use. -/
structure Took
    (ops : FileOperations) (handle : Int) (before after : VfsState) :
    Prop where
  openFiles : after.openFiles = before.openFiles
  files : after.files = before.files
  fsList : after.fsList = before.fsList
  fresh : ¬ before.InUse ops handle
  inUse : ∀ other value, after.InUse other value ↔
    before.InUse other value ∨ (other = ops ∧ value = handle)

/-- The handle of one file system goes out of use. -/
structure Gave
    (ops : FileOperations) (handle : Int) (before after : VfsState) :
    Prop where
  openFiles : after.openFiles = before.openFiles
  files : after.files = before.files
  fsList : after.fsList = before.fsList
  inUse : ∀ other value, after.InUse other value ↔
    before.InUse other value ∧ ¬ (other = ops ∧ value = handle)

section Handles

variable {state : VfsState} {ops : FileOperations} {handle : Int}

theorem VfsState.InUse.range (used : state.InUse ops handle) :
    0 ≤ handle ∧ handle < maxOpenFiles := by
  by_contra outside
  have out : handle < 0 ∨ (maxOpenFiles : Int) ≤ handle := by omega
  cases ops with
  | ramfsOps => exact used (if_pos out)
  | devfsOps => exact used (if_pos out)

theorem ramfsFileOf_withRamfsHandle
    {handle : Nat}
    (bound : handle < maxOpenFiles)
    (entry : RamfsPrivate)
    (value : Int) :
    ramfsFileOf value (state.withRamfsHandle handle entry) =
      if value = handle then entry.file else ramfsFileOf value state := by
  by_cases same : value = handle
  · have inside : ¬ (value < 0 ∨ (maxOpenFiles : Int) ≤ value) := by omega
    rw [if_pos same, ramfsFileOf, if_neg inside, same]
    simp
  · rw [if_neg same, ramfsFileOf, ramfsFileOf]
    split
    · rfl
    · have different : value.toNat ≠ handle := by omega
      simp [different]

theorem devfsDeviceOf_withDevfsHandle
    {handle : Nat}
    (bound : handle < maxOpenFiles)
    (entry : DevfsPrivate)
    (value : Int) :
    devfsDeviceOf value (state.withDevfsHandle handle entry) =
      if value = handle then entry.device else devfsDeviceOf value state := by
  by_cases same : value = handle
  · have inside : ¬ (value < 0 ∨ (maxOpenFiles : Int) ≤ value) := by omega
    rw [if_pos same, devfsDeviceOf, if_neg inside, same]
    simp
  · rw [if_neg same, devfsDeviceOf, devfsDeviceOf]
    split
    · rfl
    · have different : value.toNat ≠ handle := by omega
      simp [different]

theorem took_ramfs
    {handle : Nat}
    (bound : handle < maxOpenFiles)
    (fresh : (state.ramfsHandles handle).file = none)
    (file : Nat) :
    Took .ramfsOps handle state
      (state.withRamfsHandle handle ⟨some file, 0⟩) where
  openFiles := rfl
  files := rfl
  fsList := rfl
  fresh := by
    simp [VfsState.InUse, ramfsFileOf, fresh]
  inUse := by
    intro other value
    cases other with
    | ramfsOps =>
        simp only [VfsState.InUse, ramfsFileOf_withRamfsHandle bound]
        by_cases same : value = handle <;> simp [same]
    | devfsOps =>
        simp [VfsState.InUse, devfsDeviceOf, VfsState.withRamfsHandle]

theorem took_devfs
    {handle : Nat}
    (bound : handle < maxOpenFiles)
    (fresh : (state.devfsHandles handle).device = 0)
    {device : Int}
    (nonzero : device ≠ 0) :
    Took .devfsOps handle state
      (state.withDevfsHandle handle ⟨device, 0⟩) where
  openFiles := rfl
  files := rfl
  fsList := rfl
  fresh := by
    simp [VfsState.InUse, devfsDeviceOf, fresh]
  inUse := by
    intro other value
    cases other with
    | ramfsOps =>
        simp [VfsState.InUse, ramfsFileOf, VfsState.withDevfsHandle]
    | devfsOps =>
        simp only [VfsState.InUse, devfsDeviceOf_withDevfsHandle bound]
        by_cases same : value = handle <;> simp [same, nonzero]

theorem findRamfsHandle_eq_some
    {handle : Nat}
    (found : findRamfsHandle state = some handle) :
    handle < maxOpenFiles ∧ (state.ramfsHandles handle).file = none := by
  obtain ⟨free, inTable, _⟩ := List.find?_range_eq_some.mp found
  exact ⟨List.mem_range.mp inTable, by simpa using free⟩

theorem findDevfsHandle_eq_some
    {handle : Nat}
    (found : findDevfsHandle state = some handle) :
    handle < maxOpenFiles ∧ (state.devfsHandles handle).device = 0 := by
  obtain ⟨free, inTable, _⟩ := List.find?_range_eq_some.mp found
  exact ⟨List.mem_range.mp inTable, by simpa using free⟩

theorem devfsResolveDevice_ne_zero (path : List UInt8) :
    devfsResolveDevice path ≠ 0 := by
  rw [devfsResolveDevice]
  split
  · decide
  · split
    · decide
    · split <;> decide

/-- `open` of a file system fails without an effect or takes a handle. -/
theorem FileOperations.open_cases
    (ops : FileOperations) (path : List UInt8) (flags : Nat)
    (state : VfsState) :
    ((ops.open path flags state).1 < 0 ∧
      (ops.open path flags state).2 = state) ∨
    0 ≤ (ops.open path flags state).1 ∧
      Took ops (ops.open path flags state).1 state
        (ops.open path flags state).2 := by
  cases ops with
  | ramfsOps =>
      simp only [FileOperations.open, ramfsOpen]
      split
      · exact Or.inl ⟨show enoent < 0 by decide, rfl⟩
      · split
        · exact Or.inl ⟨show eacces < 0 by decide, rfl⟩
        · split
          · exact Or.inl ⟨show emfile < 0 by decide, rfl⟩
          · rename_i handle found
            obtain ⟨bound, fresh⟩ := findRamfsHandle_eq_some found
            exact Or.inr ⟨Int.natCast_nonneg handle, took_ramfs bound fresh _⟩
  | devfsOps =>
      simp only [FileOperations.open, devfsOpen]
      split
      · exact Or.inl ⟨show enoent < 0 by decide, rfl⟩
      · split
        · exact Or.inl ⟨show emfile < 0 by decide, rfl⟩
        · rename_i handle found
          obtain ⟨bound, fresh⟩ := findDevfsHandle_eq_some found
          exact Or.inr ⟨Int.natCast_nonneg handle,
            took_devfs bound fresh (devfsResolveDevice_ne_zero path)⟩

/-- `close` of a file system releases a handle in use. -/
theorem FileOperations.close_gave
    (used : state.InUse ops handle) :
    Gave ops handle state (ops.close handle state).2 := by
  obtain ⟨low, high⟩ := used.range
  obtain ⟨index, rfl⟩ := Int.eq_ofNat_of_zero_le low
  have bound : index < maxOpenFiles := by omega
  cases ops with
  | ramfsOps =>
      obtain ⟨file, isFile⟩ := Option.ne_none_iff_exists'.mp used
      simp only [FileOperations.close, ramfsClose, isFile]
      refine ⟨rfl, rfl, rfl, fun other value => ?_⟩
      cases other with
      | ramfsOps =>
          simp only [VfsState.InUse, Int.toNat_natCast,
            ramfsFileOf_withRamfsHandle bound]
          by_cases same : value = index <;> simp [same]
      | devfsOps =>
          simp [VfsState.InUse, devfsDeviceOf, VfsState.withRamfsHandle]
  | devfsOps =>
      have inUse : devfsDeviceOf index state ≠ 0 := used
      simp only [FileOperations.close, devfsClose, if_neg inUse]
      refine ⟨rfl, rfl, rfl, fun other value => ?_⟩
      cases other with
      | ramfsOps =>
          simp [VfsState.InUse, ramfsFileOf, VfsState.withDevfsHandle]
      | devfsOps =>
          simp only [VfsState.InUse, Int.toNat_natCast,
            devfsDeviceOf_withDevfsHandle bound]
          by_cases same : value = index <;> simp [same]

end Handles

section Entries

variable {state next : VfsState} {fd : Nat} {fh : FileHandle}
variable {ops : FileOperations}

/-- An entry of the descriptor table is no handle of a file system. -/
@[simp] theorem VfsState.withOpenFile_inUse {value : Int} :
    (state.withOpenFile fd fh).InUse ops value ↔ state.InUse ops value := by
  cases ops <;> exact Iff.rfl

theorem VfsState.withOpenFile_privateData
    (sameTable : next.openFiles = state.openFiles) :
    (fun other => ((next.withOpenFile fd fh).openFiles other).privateData) =
      Function.update (fun other => (state.openFiles other).privateData) fd
        fh.privateData := by
  funext other
  by_cases same : other = fd
  · simp [same]
  · simp [same, sameTable]

theorem VfsState.openOn_withOpenFile_of_ne
    (sameTable : next.openFiles = state.openFiles)
    {other : Nat}
    (different : other ≠ fd) :
    (next.withOpenFile fd fh).OpenOn ops other ↔ state.OpenOn ops other := by
  simp [VfsState.OpenOn, different, sameTable]

end Entries

namespace TablesAgree

variable {state next : VfsState} {fd : Nat} {fs : Filesystem} {handle : Int}

/-- Filling a free descriptor with a handle that has come into use. -/
theorem take
    (tables : TablesAgree state)
    (known : fs.Known)
    (took : Took fs.ops handle state next)
    (behind : 3 ≤ fd)
    (inTable : fd < maxOpenFiles)
    (free : (state.openFiles fd).refCount = 0)
    (flags : Nat) :
    TablesAgree (next.withOpenFile fd ⟨some fs, handle, 0, flags, 1⟩) where
  standard := by
    intro other below
    have different : other ≠ fd := by omega
    simp only [VfsState.withOpenFile_openFiles, took.openFiles,
      Function.update_of_ne different]
    exact tables.standard other below
  opened := by
    intro other above below used
    simp only [VfsState.withOpenFile_openFiles, took.openFiles] at used ⊢
    by_cases same : other = fd
    · rw [same, Function.update_self]
      exact ⟨rfl, fs, rfl, known⟩
    · rw [Function.update_of_ne same] at used ⊢
      exact tables.opened other above below used
  handles := by
    intro ops
    have notOpen : ¬ state.OpenOn ops fd := fun isOpen => isOpen.2.1 free
    have domain : {other | (next.withOpenFile fd
          ⟨some fs, handle, 0, flags, 1⟩).OpenOn ops other} =
        if ops = fs.ops then insert fd {other | state.OpenOn ops other}
        else {other | state.OpenOn ops other} := by
      ext other
      by_cases same : other = fd
      · subst same
        split
        · rename_i sameFs
          simp [VfsState.OpenOn, inTable, sameFs]
        · rename_i otherFs
          simp [VfsState.OpenOn, free, Ne.symm otherFs]
      · rw [mem_ofPred_eq,
          VfsState.openOn_withOpenFile_of_ne took.openFiles same]
        split <;> simp [same]
    have range : {value | (next.withOpenFile fd
          ⟨some fs, handle, 0, flags, 1⟩).InUse ops value} =
        if ops = fs.ops then insert handle {value | state.InUse ops value}
        else {value | state.InUse ops value} := by
      ext value
      rw [mem_ofPred_eq, VfsState.withOpenFile_inUse, took.inUse]
      split
      · rename_i sameFs
        simp [sameFs, or_comm]
      · rename_i otherFs
        simp [otherFs]
    rw [VfsState.withOpenFile_privateData took.openFiles, domain, range]
    split
    · rename_i sameFs
      exact bijOn_update_insert (tables.handles ops) notOpen
        (sameFs ▸ took.fresh)
    · exact bijOn_update (tables.handles ops) notOpen

/-- Clearing a descriptor whose handle has gone out of use. -/
theorem give
    (tables : TablesAgree state)
    (isOpen : state.OpenOn fs.ops fd)
    (gave : Gave fs.ops (state.openFiles fd).privateData state next) :
    TablesAgree (next.withOpenFile fd FileHandle.clear) where
  standard := by
    intro other below
    simp only [VfsState.withOpenFile_openFiles, gave.openFiles]
    by_cases same : other = fd
    · rw [same, Function.update_self]
      rfl
    · rw [Function.update_of_ne same]
      exact tables.standard other below
  opened := by
    intro other above below used
    simp only [VfsState.withOpenFile_openFiles, gave.openFiles] at used ⊢
    by_cases same : other = fd
    · rw [same, Function.update_self] at used
      exact absurd rfl used
    · rw [Function.update_of_ne same] at used ⊢
      exact tables.opened other above below used
  handles := by
    intro ops
    have domain : {other | (next.withOpenFile fd
          FileHandle.clear).OpenOn ops other} =
        {other | state.OpenOn ops other} \ {fd} := by
      ext other
      by_cases same : other = fd
      · simp [same, VfsState.OpenOn, FileHandle.clear]
      · rw [mem_ofPred_eq,
          VfsState.openOn_withOpenFile_of_ne gave.openFiles same]
        simp [same]
    rw [VfsState.withOpenFile_privateData gave.openFiles, domain]
    simp only [VfsState.withOpenFile_inUse, gave.inUse]
    by_cases sameFs : ops = fs.ops
    · have removed := bijOn_update_remove
        (b := FileHandle.clear.privateData) (tables.handles ops)
        (sameFs ▸ isOpen)
      convert removed using 1
      ext value
      simp [sameFs]
    · have notOpen : ¬ state.OpenOn ops fd := by
        intro other
        obtain ⟨_, _, first, isFirst, firstOps⟩ := isOpen
        obtain ⟨_, _, second, isSecond, secondOps⟩ := other
        rw [isFirst] at isSecond
        cases isSecond
        exact sameFs (secondOps.symm.trans firstOps)
      have unchanged : {other | state.OpenOn ops other} \ {fd} =
          {other | state.OpenOn ops other} :=
        sdiff_singleton_eq_self notOpen
      rw [unchanged]
      simpa [sameFs] using bijOn_update (tables.handles ops) notOpen

/-- A standard descriptor changes and stays on no file system. -/
theorem standardEntry
    (tables : TablesAgree state)
    (below : fd < 3)
    {fh : FileHandle}
    (noFs : fh.fs = none) :
    TablesAgree (state.withOpenFile fd fh) where
  standard := by
    intro other otherBelow
    by_cases same : other = fd
    · simp [same, noFs]
    · simp [same, tables.standard other otherBelow]
  opened := by
    intro other above inTable used
    have different : other ≠ fd := by omega
    simp only [VfsState.withOpenFile_openFiles,
      Function.update_of_ne different] at used ⊢
    exact tables.opened other above inTable used
  handles := by
    intro ops
    have before : ¬ state.OpenOn ops fd := by
      simp [VfsState.OpenOn, tables.standard fd below]
    have domain : {other | (state.withOpenFile fd fh).OpenOn ops other} =
        {other | state.OpenOn ops other} := by
      ext other
      by_cases same : other = fd
      · simp [same, VfsState.OpenOn, noFs, tables.standard fd below]
      · exact VfsState.openOn_withOpenFile_of_ne rfl same
    rw [VfsState.withOpenFile_privateData rfl, domain]
    simp only [VfsState.withOpenFile_inUse]
    exact bijOn_update (tables.handles ops) before

/-- A free descriptor leaves a free entry in every handle table. -/
theorem exists_free_handle
    (tables : TablesAgree state)
    (inTable : fd < maxOpenFiles)
    (free : (state.openFiles fd).refCount = 0)
    (ops : FileOperations) :
    ∃ index < maxOpenFiles, ¬ state.InUse ops (index : Nat) := by
  by_contra! full
  have onto : SurjOn (fun other => (state.openFiles other).privateData)
      ((Finset.range maxOpenFiles).erase fd)
      ((Finset.range maxOpenFiles).image Int.ofNat) := by
    intro value member
    obtain ⟨index, bound, rfl⟩ := Finset.mem_image.mp (Finset.mem_coe.mp member)
    obtain ⟨other, isOpen, isHandle⟩ :=
      (tables.handles ops).surjOn (full index (Finset.mem_range.mp bound))
    have different : other ≠ fd := by
      rintro rfl
      exact isOpen.2.1 free
    exact ⟨other, Finset.mem_coe.mpr (Finset.mem_erase.mpr
      ⟨different, Finset.mem_range.mpr isOpen.1⟩), isHandle⟩
  have count := Finset.card_le_card_of_surjOn _ onto
  rw [Finset.card_image_of_injective _ fun _ _ => Int.ofNat.inj,
    Finset.card_range,
    Finset.card_erase_of_mem (Finset.mem_range.mpr inTable),
    Finset.card_range, maxOpenFiles] at count
  omega

end TablesAgree

end MatrixOS
