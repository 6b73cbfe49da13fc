import MatrixOS.RamfsRead
import MatrixOS.VfsAccess

namespace MatrixOS

open ByteMemory

/-!
# Sequential reads

A descriptor of a file keeps its own position, so that its reads return the
file from the beginning on, whatever calls are made on other descriptors in
between.
-/

/-! ## The calls -/

/-- No byte of the buffer is a byte of the file. -/
def BufferApart (file : RamfsFile) (buf count : Nat) : Prop :=
  ∀ i < count, ∀ j < file.size, wrap32 (buf + i) ≠ wrap32 (file.data + j)

instance (file : RamfsFile) (buf count : Nat) :
    Decidable (BufferApart file buf count) :=
  inferInstanceAs (Decidable (∀ i < count, ∀ j < file.size, _))

namespace VfsCall

/-- The call is about the descriptor. -/
def Names (fd : Int) : VfsCall → Prop
  | .open _ _ => False
  | .close other => other = fd
  | .read other _ _ => other = fd
  | .write other _ _ => other = fd
  | .seek other _ _ => other = fd
  | .ioctl other _ _ => other = fd
  | .stat _ _ => False

/-- The counts are below `2 ^ 31`, and what is written is not the file. -/
def Apart (file : RamfsFile) : VfsCall → Prop
  | .open _ _ => True
  | .close _ => True
  | .read _ buf count => count < 2 ^ 31 ∧ BufferApart file buf count
  | .write _ _ count => count < 2 ^ 31
  | .seek _ _ _ => True
  | .ioctl _ _ argp => BufferApart file argp 4
  | .stat _ target => BufferApart file target 16

/-- What is stored is not the file. -/
def StoresApart (file : RamfsFile) : VfsCall → Prop
  | .read _ buf count => BufferApart file buf count
  | .ioctl _ _ argp => BufferApart file argp 4
  | .stat _ target => BufferApart file target 16
  | _ => True

theorem Apart.storesApart
    {file : RamfsFile} {call : VfsCall}
    (apart : call.Apart file) :
    call.StoresApart file := by
  cases call with
  | read other buf count => exact apart.2
  | ioctl other request argp => exact apart
  | stat path target => exact apart
  | _ => trivial

/-- The number of bytes that are asked for on the descriptor. -/
def countOn (fd : Int) : VfsCall → Nat
  | .read other _ count => if other = fd then count else 0
  | _ => 0

/-- The bytes that the call returns on the descriptor. -/
def returnedOn (fd : Int) (state : VfsState) : VfsCall → List UInt8
  | .read other buf count =>
      if other = fd then
        bufferBytes (vfsRead other buf count state).2.mem buf
          (vfsRead other buf count state).1.toNat
      else
        []
  | _ => []

/-- The call is a read of the descriptor. -/
def isReadOn (fd : Int) : VfsCall → Bool
  | .read other _ _ => other = fd
  | _ => false

/-- A read of the descriptor, or a call that does not name it. -/
def Allowed (fd : Int) (file : RamfsFile) (call : VfsCall) : Prop :=
  (call.isReadOn fd ∨ ¬ call.Names fd) ∧ call.Apart file

end VfsCall

/-- The bytes that a sequence of calls returns on a descriptor. -/
def bytesRead (fd : Int) : List VfsCall → VfsState → List UInt8
  | [], _ => []
  | call :: calls, state =>
      call.returnedOn fd state ++ bytesRead fd calls (call.perform state).2

/-- The bytes of a file. -/
def fileBytes (mem : Memory) (file : RamfsFile) : List UInt8 :=
  bufferBytes mem file.data file.size

/-! ## Calls that do not name a descriptor -/

/-- The descriptor, its handle and the file are as they were. -/
structure Untouched
    (fd handle : Nat) (file : RamfsFile) (before after : VfsState) :
    Prop where
  openFiles : after.openFiles fd = before.openFiles fd
  ramfsHandles : after.ramfsHandles handle = before.ramfsHandles handle
  content : ∀ j < file.size, after.mem (wrap32 (file.data + j)) =
    before.mem (wrap32 (file.data + j))

namespace Untouched

variable {fd handle : Nat} {file : RamfsFile} {before after last : VfsState}

theorem refl (state : VfsState) : Untouched fd handle file state state :=
  ⟨rfl, rfl, fun _ _ => rfl⟩

theorem trans
    (first : Untouched fd handle file before after)
    (second : Untouched fd handle file after last) :
    Untouched fd handle file before last :=
  ⟨second.openFiles.trans first.openFiles,
    second.ramfsHandles.trans first.ramfsHandles,
    fun j bound => (second.content j bound).trans (first.content j bound)⟩

theorem withRamfsHandle
    {other : Nat}
    (different : handle ≠ other)
    (state : VfsState)
    (entry : RamfsPrivate) :
    Untouched fd handle file state (state.withRamfsHandle other entry) :=
  ⟨rfl, Function.update_of_ne different _ _, fun _ _ => rfl⟩

theorem withDevfsHandle (state : VfsState) (other : Nat) (entry : DevfsPrivate) :
    Untouched fd handle file state (state.withDevfsHandle other entry) :=
  ⟨rfl, rfl, fun _ _ => rfl⟩

theorem withOpenFile
    {other : Nat}
    (different : fd ≠ other)
    (state : VfsState)
    (fh : FileHandle) :
    Untouched fd handle file state (state.withOpenFile other fh) :=
  ⟨Function.update_of_ne different _ _, rfl, fun _ _ => rfl⟩

theorem withKeyboard (state : VfsState) (keyboard : Keyboard) :
    Untouched fd handle file state (state.withKeyboard keyboard) :=
  ⟨rfl, rfl, fun _ _ => rfl⟩

theorem withScreen (state : VfsState) (screen : Screen) :
    Untouched fd handle file state (state.withScreen screen) :=
  ⟨rfl, rfl, fun _ _ => rfl⟩

theorem withMem
    {state : VfsState}
    {mem : Memory}
    (same : ∀ j < file.size, mem (wrap32 (file.data + j)) =
      state.mem (wrap32 (file.data + j))) :
    Untouched fd handle file state (state.withMem mem) :=
  ⟨rfl, rfl, same⟩

theorem advance
    {other : Nat}
    (different : fd ≠ other)
    (result : Int)
    (state : VfsState) :
    Untouched fd handle file state (advance other result state) := by
  rw [MatrixOS.advance]
  split
  · exact withOpenFile different state _
  · exact refl state

end Untouched

section Foreign

variable {fd handle : Nat} {file : RamfsFile} {state : VfsState}
variable {other : Int} {buf count : Nat}

/-- What is written into a buffer apart from the file is not in the file. -/
theorem WritesBuffer.content
    {before after : Memory}
    (writes : WritesBuffer before after buf count)
    (apart : BufferApart file buf count) :
    ∀ j < file.size, after (wrap32 (file.data + j)) =
      before (wrap32 (file.data + j)) :=
  fun j bound => writes _ (wrap32_lt _) fun i below => (apart i below j bound).symm

/-- The file system's handle is not that of the descriptor. -/
def OtherHandle (ops : FileOperations) (other : Int) (handle : Nat) : Prop :=
  ops = .ramfsOps → other ≠ handle

namespace FileOperations

variable {ops : FileOperations}

theorem read_untouched
    (different : OtherHandle ops other handle)
    (apart : BufferApart file buf count) :
    Untouched fd handle file state (ops.read other buf count state).2 := by
  obtain ⟨mem, writes, ⟨keyboard, result⟩ | ⟨isRamfs, nonneg, pos, result⟩⟩ :=
    ops.read_effect state other buf count
  · rw [result]
    exact (Untouched.withKeyboard state _).trans (.withMem (writes.content apart))
  · have notSame := different isRamfs
    rw [result]
    exact (Untouched.withMem (writes.content apart)).trans
      (.withRamfsHandle (by omega) _ _)

theorem write_untouched (other : Int) (buf count : Nat) :
    Untouched fd handle file state (ops.write other buf count state).2 := by
  obtain ⟨screen, result⟩ := ops.write_effect state other buf count
  rw [result]
  exact .withScreen state screen

theorem seek_untouched
    (different : OtherHandle ops other handle)
    (offset whence : Int) :
    Untouched fd handle file state (ops.seek other offset whence state).2 := by
  rcases ops.seek_effect state other offset whence with
    result | ⟨isRamfs, nonneg, pos, result⟩
  · rw [result]
    exact .refl state
  · have notSame := different isRamfs
    rw [result]
    exact .withRamfsHandle (by omega) _ _

theorem ioctl_untouched
    {argp : Nat}
    (request : Int)
    (apart : BufferApart file argp 4) :
    Untouched fd handle file state (ops.ioctl other request argp state).2 := by
  obtain ⟨screen, mem, writes, result⟩ :=
    ops.ioctl_effect state other request argp
  rw [result]
  exact (Untouched.withScreen state screen).trans
    (.withMem (writes.content apart))

theorem stat_untouched
    {stat : Nat}
    (path : List UInt8)
    (apart : BufferApart file stat 16) :
    Untouched fd handle file state (ops.stat path stat state).2 := by
  obtain ⟨mem, writes, result⟩ := ops.stat_effect state path stat
  rw [result]
  exact .withMem (writes.content apart)

theorem close_untouched (different : OtherHandle ops other handle) :
    Untouched fd handle file state (ops.close other state).2 := by
  rcases ops.close_effect state other with
    result | ⟨isRamfs, nonneg, result⟩ | ⟨_, result⟩
  · rw [result]
    exact .refl state
  · have notSame := different isRamfs
    rw [result]
    exact .withRamfsHandle (by omega) _ _
  · rw [result]
    exact .withDevfsHandle state _ _

/-- A file system opens a handle that is not in use. -/
theorem open_untouched
    (used : (state.ramfsHandles handle).file ≠ none)
    (path : List UInt8)
    (flags : Nat) :
    Untouched fd handle file state (ops.open path flags state).2 := by
  rcases ops.open_effect state path flags with
    result | ⟨_, free, opened, found, result⟩ | ⟨_, free, device, _, result⟩
  · rw [result]
    exact .refl state
  · have isFree := (findRamfsHandle_eq_some found).2
    rw [result]
    refine .withRamfsHandle ?_ _ _
    rintro rfl
    exact used isFree
  · rw [result]
    exact .withDevfsHandle state _ _

end FileOperations

end Foreign

/-! ## A descriptor with a handle of ramfs -/

/-- The descriptor is open on ramfs and has the handle. -/
structure Holder (state : VfsState) (fd handle : Nat) : Prop where
  tables : TablesAgree state
  openOn : state.OpenOn .ramfsOps fd
  privateData : (state.openFiles fd).privateData = handle

section Holder

variable {state : VfsState} {fd handle : Nat} {file : RamfsFile}

theorem Holder.file_ne_none
    (holder : Holder state fd handle) :
    (state.ramfsHandles handle).file ≠ none := by
  have inUse := (holder.tables.handles .ramfsOps).mapsTo holder.openOn
  change state.InUse .ramfsOps (state.openFiles fd).privateData at inUse
  rw [holder.privateData] at inUse
  obtain ⟨_, high⟩ := inUse.range
  have inside : ¬ ((handle : Int) < 0 ∨ (maxOpenFiles : Int) ≤ handle) := by
    omega
  rwa [VfsState.InUse, ramfsFileOf, if_neg inside] at inUse

/-- Another open descriptor has another handle. -/
theorem Holder.otherHandle
    (holder : Holder state fd handle)
    {other : Nat} {fs : Filesystem}
    (different : other ≠ fd)
    (inTable : other < maxOpenFiles)
    (used : (state.openFiles other).refCount ≠ 0)
    (isOpen : (state.openFiles other).fs = some fs) :
    OtherHandle fs.ops (state.openFiles other).privateData handle := by
  intro isRamfs same
  have otherOpen : state.OpenOn .ramfsOps other :=
    ⟨inTable, used, fs, isOpen, isRamfs⟩
  exact different ((holder.tables.handles .ramfsOps).injOn otherOpen
    holder.openOn (same.trans holder.privateData.symm))

/-- What a descriptor in use that is not this one shares with it. -/
theorem Holder.apart_of_used
    (holder : Holder state fd handle)
    {other : Int}
    (different : other ≠ fd)
    (good : ¬ BadFd other state) :
    fd ≠ other.toNat ∧
      ∀ fs, (state.openFiles other.toNat).fs = some fs →
        OtherHandle fs.ops (state.openFiles other.toNat).privateData
          handle := by
  simp only [BadFd, not_or, Int.not_lt, Int.not_le] at good
  obtain ⟨nonneg, inTable, used⟩ := good
  have apart : other.toNat ≠ fd := by omega
  exact ⟨apart.symm, fun fs isOpen =>
    holder.otherHandle apart (by omega) used isOpen⟩

theorem Holder.vfsClose_untouched
    (holder : Holder state fd handle)
    {other : Int}
    (different : other ≠ fd) :
    Untouched fd handle file state (vfsClose other state).2 := by
  rw [vfsClose]
  split
  · exact .refl state
  · rename_i good
    obtain ⟨apart, otherHandle⟩ := holder.apart_of_used different good
    have counted : Untouched fd handle file state _ :=
      .withOpenFile apart state
        { state.openFiles other.toNat with
          refCount := (state.openFiles other.toNat).refCount - 1 }
    simp only
    split
    · exact counted
    · split
      · exact counted.trans (.withOpenFile apart _ _)
      · rename_i fs isOpen
        exact (counted.trans (FileOperations.close_untouched
          (otherHandle fs isOpen))).trans (.withOpenFile apart _ _)

theorem Holder.vfsRead_untouched
    (holder : Holder state fd handle)
    {other : Int} {buf count : Nat}
    (different : other ≠ fd)
    (buffer : BufferApart file buf count) :
    Untouched fd handle file state (vfsRead other buf count state).2 := by
  rw [vfsRead]
  split
  · exact .refl state
  · rename_i good
    obtain ⟨apart, otherHandle⟩ := holder.apart_of_used different good
    simp only
    split
    · exact .refl state
    · split
      · exact .refl state
      · rename_i fs isOpen
        exact (FileOperations.read_untouched (otherHandle fs isOpen)
          buffer).trans (.advance apart _ _)

theorem Holder.vfsWrite_untouched
    (holder : Holder state fd handle)
    {other : Int}
    (different : other ≠ fd)
    (buf count : Nat) :
    Untouched fd handle file state (vfsWrite other buf count state).2 := by
  rw [vfsWrite]
  split
  · exact .refl state
  · rename_i good
    obtain ⟨apart, _⟩ := holder.apart_of_used different good
    simp only
    split
    · exact .refl state
    · split
      · exact .withScreen state _
      · split
        · exact .refl state
        · exact (FileOperations.write_untouched _ buf count).trans
            (.advance apart _ _)

theorem Holder.vfsSeek_untouched
    (holder : Holder state fd handle)
    {other : Int}
    (different : other ≠ fd)
    (offset whence : Int) :
    Untouched fd handle file state (vfsSeek other offset whence state).2 := by
  rw [vfsSeek]
  split
  · exact .refl state
  · rename_i good
    obtain ⟨_, otherHandle⟩ := holder.apart_of_used different good
    simp only
    split
    · exact .refl state
    · rename_i fs isOpen
      exact FileOperations.seek_untouched (otherHandle fs isOpen) offset whence

theorem vfsIoctl_untouched
    {other : Int} {argp : Nat}
    (request : Int)
    (buffer : BufferApart file argp 4) :
    Untouched fd handle file state (vfsIoctl other request argp state).2 := by
  rw [vfsIoctl]
  split
  · exact .refl state
  · simp only
    split
    · exact .refl state
    · exact FileOperations.ioctl_untouched request buffer

theorem vfsStat_untouched
    {target : Nat}
    (path : Option (List UInt8))
    (buffer : BufferApart file target 16) :
    Untouched fd handle file state (vfsStat path target state).2 := by
  cases path with
  | none => exact .refl state
  | some path =>
      simp only [vfsStat]
      split
      · exact .refl state
      · split
        · exact .refl state
        · exact FileOperations.stat_untouched path buffer

theorem Holder.vfsOpen_untouched
    (holder : Holder state fd handle)
    (path : Option (List UInt8))
    (flags : Nat) :
    Untouched fd handle file state (vfsOpen path flags state).2 := by
  rcases vfsOpen_cases path flags state with
    ⟨_, unchanged⟩ | ⟨name, fs, free, _, _, found, _, result⟩
  · rw [unchanged]
    exact .refl state
  · obtain ⟨⟨_, _, isFree⟩, _⟩ := findFreeFd_eq_some_iff.mp found
    have apart : fd ≠ free := by
      rintro rfl
      exact holder.openOn.2.1 isFree
    rw [result]
    exact (FileOperations.open_untouched holder.file_ne_none name flags).trans
      (.withOpenFile apart _ _)

/-- A call that does not name the descriptor leaves it alone. -/
theorem Holder.untouched
    (holder : Holder state fd handle)
    {call : VfsCall}
    (notNamed : ¬ call.Names fd)
    (apart : call.StoresApart file) :
    Untouched fd handle file state (call.perform state).2 := by
  cases call with
  | «open» path flags => exact holder.vfsOpen_untouched path flags
  | close other => exact holder.vfsClose_untouched notNamed
  | read other buf count => exact holder.vfsRead_untouched notNamed apart
  | write other buf count => exact holder.vfsWrite_untouched notNamed buf count
  | seek other offset whence =>
      exact holder.vfsSeek_untouched notNamed offset whence
  | ioctl other request argp => exact vfsIoctl_untouched request apart
  | stat path target => exact vfsStat_untouched path apart

end Holder

/-! ## A descriptor that is being read -/

/-- The descriptor is open on the file, at a position. -/
structure Reading
    (state : VfsState) (fd handle index pos : Nat) (file : RamfsFile)
    (content : List UInt8) : Prop where
  invariant : VfsInvariant state
  inTable : fd < maxOpenFiles
  refCount : (state.openFiles fd).refCount = 1
  onRamfs : ∃ fs, (state.openFiles fd).fs = some fs ∧ fs.ops = .ramfsOps
  privateData : (state.openFiles fd).privateData = handle
  flags : (state.openFiles fd).flags = oRdonly
  handle_lt : handle < maxOpenFiles
  entry : state.ramfsHandles handle = ⟨some index, pos⟩
  fileAt : state.fileAt index = file
  bytes : fileBytes state.mem file = content
  pos_le : pos ≤ file.size

section Step

variable {state next : VfsState} {fd handle index pos : Nat}
variable {file : RamfsFile} {content : List UInt8}

theorem fileBytes_congr
    {mem other : Memory}
    (same : ∀ j < file.size, other (wrap32 (file.data + j)) =
      mem (wrap32 (file.data + j))) :
    fileBytes other file = fileBytes mem file :=
  List.map_congr_left fun j member => same j (List.mem_range.mp member)

theorem Reading.of_untouched
    (reading : Reading state fd handle index pos file content)
    (untouched : Untouched fd handle file state next)
    (invariant : VfsInvariant next)
    (files : next.files = state.files) :
    Reading next fd handle index pos file content where
  invariant := invariant
  inTable := reading.inTable
  refCount := by
    rw [untouched.openFiles]
    exact reading.refCount
  onRamfs := by
    rw [untouched.openFiles]
    exact reading.onRamfs
  privateData := by
    rw [untouched.openFiles]
    exact reading.privateData
  flags := by
    rw [untouched.openFiles]
    exact reading.flags
  handle_lt := reading.handle_lt
  entry := by
    rw [untouched.ramfsHandles]
    exact reading.entry
  fileAt := by
    rw [VfsState.fileAt, files]
    exact reading.fileAt
  bytes := (fileBytes_congr untouched.content).trans reading.bytes
  pos_le := reading.pos_le

theorem Reading.openOn
    (reading : Reading state fd handle index pos file content) :
    state.OpenOn .ramfsOps fd := by
  refine ⟨reading.inTable, ?_, reading.onRamfs⟩
  rw [reading.refCount]
  decide

theorem Reading.holder
    (reading : Reading state fd handle index pos file content) :
    Holder state fd handle :=
  ⟨reading.invariant.tables, reading.openOn, reading.privateData⟩

/-- A call that does not name the descriptor leaves it alone. -/
theorem Reading.foreign
    (reading : Reading state fd handle index pos file content)
    {call : VfsCall}
    (notNamed : ¬ call.Names fd)
    (apart : call.Apart file) :
    Reading (call.perform state).2 fd handle index pos file content :=
  reading.of_untouched (reading.holder.untouched notNamed apart.storesApart)
    (reading.invariant.perform call) (call.perform_sameFiles state).files

/-! ### Its own reads -/

theorem Reading.openRamfs
    (reading : Reading state fd handle index pos file content)
    (size : file.size < 2 ^ 31) :
    OpenRamfs state handle index := by
  have pos_le := reading.pos_le
  refine ⟨reading.handle_lt, ?_, ?_, ?_⟩
  · rw [reading.entry]
  · rw [reading.entry]
    exact Nat.lt_of_le_of_lt pos_le (by omega)
  · rw [reading.fileAt]
    omega

/-- The descriptor is read through its handle. -/
theorem Reading.vfsRead_eq
    (reading : Reading state fd handle index pos file content)
    (buf count : Nat) :
    vfsRead fd buf count state =
      ((ramfsRead handle buf count state).1,
        advance fd (ramfsRead handle buf count state).1
          (ramfsRead handle buf count state).2) := by
  have good : ¬ BadFd fd state := by
    have := reading.inTable
    simp only [BadFd, Int.toNat_natCast, reading.refCount]
    omega
  obtain ⟨fs, isOpen, isRamfs⟩ := reading.onRamfs
  simp only [vfsRead, if_neg good, Int.toNat_natCast, reading.flags, isOpen,
    reading.privateData, isRamfs, FileOperations.read]
  rfl

section Own

variable {buf count : Nat}

theorem Reading.readLength_eq
    (reading : Reading state fd handle index pos file content)
    (count : Nat) :
    state.readLength handle index count = min count (file.size - pos) := by
  rw [VfsState.readLength, readLength, reading.entry, reading.fileAt]

theorem Reading.readSource_eq
    (reading : Reading state fd handle index pos file content) :
    state.readSource handle index = file.data + pos := by
  rw [VfsState.readSource, reading.entry, reading.fileAt]

theorem Reading.countFits
    (reading : Reading state fd handle index pos file content)
    (size : file.size < 2 ^ 31)
    (small : count < 2 ^ 31) :
    CountFits (state.ramfsHandles handle).pos (state.fileAt index).size
      count := by
  have pos_le := reading.pos_le
  rw [reading.entry, reading.fileAt]
  refine Or.inr ⟨show pos + count < 2 ^ 32 by omega, ?_⟩
  exact Nat.lt_of_le_of_lt (Nat.min_le_left _ _) small

/-- The read is one of those that are as they should be. -/
theorem Reading.copied
    (reading : Reading state fd handle index pos file content)
    (size : file.size < 2 ^ 31)
    (small : count < 2 ^ 31)
    (apart : BufferApart file buf count) :
    ∀ i < min count (file.size - pos),
      (ramfsRead handle buf count state).2.mem (wrap32 (buf + i)) =
        state.mem (wrap32 (file.data + pos + i)) := by
  have copied := ((reading.openRamfs size).copied_iff (by omega)
    (reading.countFits size small)).mpr
    (fun i bound => ?_ : BufferFits state.mem _ buf _)
  · rwa [reading.readLength_eq, reading.readSource_eq] at copied
  · rw [reading.readLength_eq, reading.readSource_eq] at bound
    have same : wrap32 (buf + i) = wrap32 (file.data +
        (pos + (sub32 buf (file.data + pos) + i))) := by
      simp only [sub32, wrap32]
      omega
    exact absurd same (apart i (by omega) _ (by omega))

theorem advance_mem (fd : Nat) (result : Int) (state : VfsState) :
    (advance fd result state).mem = state.mem := by
  rw [advance]
  split <;> rfl

theorem advance_ramfsHandles (fd : Nat) (result : Int) (state : VfsState) :
    (advance fd result state).ramfsHandles = state.ramfsHandles := by
  rw [advance]
  split <;> rfl

/-- A part of a file, as a list. -/
theorem bufferBytes_eq_take
    {mem other : Memory}
    (copied : ∀ i < min count (file.size - pos),
      other (wrap32 (buf + i)) = mem (wrap32 (file.data + pos + i))) :
    bufferBytes other buf (min count (file.size - pos)) =
      ((fileBytes mem file).drop pos).take count := by
  apply List.ext_getElem
  · simp [bufferBytes, fileBytes]
  · intro i inBuffer inFile
    have bound : i < min count (file.size - pos) := by
      simpa [bufferBytes] using inBuffer
    simpa [bufferBytes, fileBytes, Nat.add_assoc] using copied i bound

/-- A read of the descriptor goes on by the number that it returns. -/
theorem Reading.advances
    (reading : Reading state fd handle index pos file content)
    (size : file.size < 2 ^ 31)
    (small : count < 2 ^ 31)
    (buf : Nat) :
    (vfsRead fd buf count state).1 = (min count (file.size - pos) : Nat) ∧
      Reading (vfsRead fd buf count state).2 fd handle index
        (pos + min count (file.size - pos)) file
        (fileBytes (vfsRead fd buf count state).2.mem file) := by
  have read := (reading.openRamfs size).ramfsRead_fits buf
    (reading.countFits size small)
  have same := vfsRead_sameTables state fd buf count
  have whole := reading.vfsRead_eq buf count
  have length := reading.readLength_eq count
  constructor
  · rw [whole, read, length]
  · refine ⟨reading.invariant.perform (.read fd buf count), reading.inTable,
      ?_, ?_, ?_, ?_, reading.handle_lt, ?_, ?_, rfl, ?_⟩
    · rw [same.refCount]
      exact reading.refCount
    · rw [same.fs]
      exact reading.onRamfs
    · rw [same.privateData]
      exact reading.privateData
    · rw [same.flags]
      exact reading.flags
    · rw [whole, advance_ramfsHandles, read,
        VfsState.withRamfsHandle_ramfsHandles, Function.update_self, length,
        reading.entry]
    · rw [VfsState.fileAt, same.files]
      exact reading.fileAt
    · have pos_le := reading.pos_le
      omega

/-- A read of the descriptor returns the next bytes of the file. -/
theorem Reading.own
    (reading : Reading state fd handle index pos file content)
    (size : file.size < 2 ^ 31)
    (small : count < 2 ^ 31)
    (apart : BufferApart file buf count) :
    bufferBytes (vfsRead fd buf count state).2.mem buf
        (vfsRead fd buf count state).1.toNat = (content.drop pos).take count ∧
      Reading (vfsRead fd buf count state).2 fd handle index
        (pos + min count (file.size - pos)) file content := by
  obtain ⟨result, next⟩ := reading.advances size small buf
  have mem : (vfsRead fd buf count state).2.mem =
      (ramfsRead handle buf count state).2.mem := by
    rw [reading.vfsRead_eq, advance_mem]
  constructor
  · rw [result, mem, Int.toNat_natCast,
      bufferBytes_eq_take (reading.copied size small apart), reading.bytes]
  · refine { next with bytes := ?_ }
    have read := (reading.openRamfs size).ramfsRead_fits buf
      (reading.countFits size small)
    have length := reading.readLength_eq count
    rw [mem, read, ← reading.bytes]
    refine fileBytes_congr fun j bound => memcpyFlat_outside fun i below => ?_
    rw [length] at below
    exact (apart i (by omega) j bound).symm

end Own

end Step

/-! ## Sequences of calls -/

section Sequence

variable {state : VfsState} {fd handle index pos : Nat}
variable {file : RamfsFile} {content : List UInt8} {calls : List VfsCall}

/-- The number of bytes that a sequence of calls asks for on a descriptor. -/
def countOn (fd : Int) (calls : List VfsCall) : Nat :=
  (calls.map (VfsCall.countOn fd)).sum

theorem length_fileBytes (mem : Memory) (file : RamfsFile) :
    (fileBytes mem file).length = file.size := by
  simp [fileBytes, bufferBytes]

theorem Reading.length_content
    (reading : Reading state fd handle index pos file content) :
    content.length = file.size := by
  rw [← reading.bytes, length_fileBytes]

theorem VfsCall.isReadOn_iff {call : VfsCall} {fd : Int} :
    call.isReadOn fd = true ↔ ∃ buf count, call = .read fd buf count := by
  cases call <;> simp [VfsCall.isReadOn]

theorem VfsCall.not_names
    {call : VfsCall} {fd : Int}
    (notNamed : ¬ call.Names fd) :
    call.countOn fd = 0 ∧ call.isReadOn fd = false ∧
      ∀ state, call.returnedOn fd state = [] := by
  cases call with
  | read other buf count =>
      have different : other ≠ fd := notNamed
      simp [VfsCall.countOn, VfsCall.isReadOn, VfsCall.returnedOn, different]
  | _ => exact ⟨rfl, rfl, fun _ => rfl⟩

/-- The reads of a descriptor go on where it is. -/
theorem Reading.bytesRead
    (reading : Reading state fd handle index pos file content)
    (size : file.size < 2 ^ 31)
    (allowed : ∀ call ∈ calls, call.Allowed fd file) :
    bytesRead fd calls state = (content.drop pos).take (countOn fd calls) := by
  induction calls generalizing state pos with
  | nil =>
      rfl
  | cons call calls inductionHypothesis =>
      obtain ⟨kind, apart⟩ := allowed call (by simp)
      have rest : ∀ call ∈ calls, call.Allowed fd file := fun other member =>
        allowed other (List.mem_cons_of_mem _ member)
      have counted : countOn fd (call :: calls) =
          call.countOn fd + countOn fd calls := by
        simp [countOn]
      rw [MatrixOS.bytesRead, counted]
      rcases kind with isRead | notNamed
      · obtain ⟨buf, count, rfl⟩ := VfsCall.isReadOn_iff.mp isRead
        obtain ⟨returned, after⟩ := reading.own size apart.1 apart.2
        have first : VfsCall.returnedOn fd state (.read fd buf count) =
            (content.drop pos).take count := by
          rw [VfsCall.returnedOn, if_pos rfl]
          exact returned
        have dropped : content.drop (pos + min count (file.size - pos)) =
            (content.drop pos).drop count := by
          rw [List.drop_drop, ← reading.length_content]
          by_cases enough : count ≤ content.length - pos
          · rw [Nat.min_eq_left enough]
          · rw [List.drop_of_length_le (by omega),
              List.drop_of_length_le (by omega)]
        rw [first, VfsCall.countOn, if_pos rfl, List.take_add, ← dropped]
        exact congrArg _ (inductionHypothesis after rest)
      · obtain ⟨noCount, _, nothing⟩ := VfsCall.not_names notNamed
        rw [noCount, Nat.zero_add, nothing, List.nil_append]
        exact inductionHypothesis (reading.foreign notNamed apart) rest

theorem countOn_filter (fd : Int) (calls : List VfsCall) :
    countOn fd (calls.filter (VfsCall.isReadOn fd)) = countOn fd calls := by
  induction calls with
  | nil =>
      rfl
  | cons call calls inductionHypothesis =>
      have counted : countOn fd (call :: calls) =
          call.countOn fd + countOn fd calls := by
        simp [countOn]
      rw [counted, ← inductionHypothesis]
      by_cases isRead : call.isReadOn fd = true
      · rw [List.filter_cons_of_pos isRead]
        simp [countOn]
      · have noCount : call.countOn fd = 0 := by
          cases call with
          | read other buf count =>
              have different : other ≠ fd := by
                simpa [VfsCall.isReadOn] using isRead
              exact if_neg different
          | _ => rfl
        rw [List.filter_cons_of_neg isRead, noCount, Nat.zero_add]

/-- A file that has been opened is read from its beginning. -/
theorem reading_vfsOpen
    {path : List UInt8}
    (invariant : VfsInvariant state)
    (elsewhere : ¬ UnderDev path)
    (found : ramfsFindFile path state = some index)
    (opened : (vfsOpen (some path) oRdonly state).1 = fd) :
    ∃ handle, Reading (vfsOpen (some path) oRdonly state).2 fd handle index 0
      (state.fileAt index) (fileBytes state.mem (state.fileAt index)) := by
  have next := invariant.perform (.open (some path) oRdonly)
  rcases vfsOpen_cases (some path) oRdonly state with
    ⟨failed, _⟩ | ⟨name, fs, free, same, resolved, isFree, done, result⟩
  · omega
  · obtain rfl := Option.some.inj same
    have isRamfs := vfsResolveFs_ops invariant.known resolved
    rw [if_neg elsewhere] at isRamfs
    obtain ⟨⟨_, inTable, _⟩, _⟩ := findFreeFd_eq_some_iff.mp isFree
    have isFd : free = fd := by
      rw [result] at opened
      exact Int.ofNat.inj opened
    have readable : ¬ (oRdonly &&& oWronly ≠ 0 ∧
        (state.fileAt index).mode &&& 0o222 = 0) := fun writes =>
      writes.1 rfl
    rw [isRamfs, FileOperations.open, ramfsOpen, found] at done result
    simp only [if_neg readable] at done result
    cases isHandle : findRamfsHandle state with
    | none =>
        rw [isHandle] at done
        exact absurd done (show ¬ 0 ≤ emfile by decide)
    | some handle =>
        have handle_lt := (findRamfsHandle_eq_some isHandle).1
        rw [isHandle] at result
        change VfsInvariant (vfsOpen (some path) oRdonly state).2 at next
        rw [result] at next ⊢
        subst isFd
        exact ⟨handle, next, inTable, by simp, ⟨fs, by simp, isRamfs⟩, by simp,
          by simp, handle_lt, Function.update_self _ _ _, rfl, rfl,
          Nat.zero_le _⟩

end Sequence

/--
The reads of a descriptor that has been opened on a file return the beginning
of the file, with other calls in between as without them.
-/
theorem sequentialReads
    {modules : List ModuleInfo} {ramfsNode devfsNode : Nat}
    {before : VfsState} {run : VfsRun}
    (reached : VfsReachable
      (bootVfsInit modules ramfsNode devfsNode before) run)
    {path : List UInt8} {index fd : Nat}
    (elsewhere : ¬ UnderDev path)
    (found : ramfsFindFile path run.state = some index)
    (size : (run.state.fileAt index).size < 2 ^ 31)
    (opened : (vfsOpen (some path) oRdonly run.state).1 = fd)
    {calls : List VfsCall}
    (allowed : ∀ call ∈ calls, call.Allowed fd (run.state.fileAt index)) :
    bytesRead fd calls (vfsOpen (some path) oRdonly run.state).2 =
        (fileBytes run.state.mem (run.state.fileAt index)).take
          (min (countOn fd calls) (run.state.fileAt index).size) ∧
      bytesRead fd calls (vfsOpen (some path) oRdonly run.state).2 =
        bytesRead fd (calls.filter (VfsCall.isReadOn fd))
          (vfsOpen (some path) oRdonly run.state).2 := by
  have invariant := reached.invariant
    (vfsInvariant_bootVfsInit modules ramfsNode devfsNode before)
  obtain ⟨handle, reading⟩ :=
    reading_vfsOpen invariant elsewhere found opened
  have alone : ∀ call ∈ calls.filter (VfsCall.isReadOn fd),
      call.Allowed fd (run.state.fileAt index) := fun call member =>
    allowed call (List.mem_filter.mp member).1
  have bytes := reading.bytesRead size allowed
  constructor
  · rw [bytes, List.drop_zero, ← length_fileBytes run.state.mem,
      ← List.take_eq_take_min]
  · rw [bytes, reading.bytesRead size alone, countOn_filter]

/-- Two descriptors of one file are read in turn. -/
def demoCalls : List VfsCall :=
  [.read 3 0x2000 4, .open (some (cstr "a")) oRdonly, .read 4 0x3000 8,
    .read 3 0x2000 6]

theorem demoCalls_allowed (call : VfsCall) (member : call ∈ demoCalls) :
    call.Allowed 3 ⟨cstr "a", 0x1000, 16, 0o444, ftRegular⟩ := by
  simp only [demoCalls, List.mem_cons, List.not_mem_nil, or_false] at member
  rcases member with rfl | rfl | rfl | rfl
  · exact ⟨Or.inl rfl, by decide, by decide⟩
  · exact ⟨Or.inr id, trivial⟩
  · exact ⟨Or.inr (show ¬ (4 : Int) = 3 by decide), by decide, by decide⟩
  · exact ⟨Or.inl rfl, by decide, by decide⟩

theorem sequentialReads_demoCalls :
    ∃ state : VfsState, bytesRead 3 demoCalls state = List.replicate 10 0 ∧
      bytesRead 3 demoCalls state =
        bytesRead 3 [.read 3 0x2000 4, .read 3 0x2000 6] state := by
  have atBoot : VfsReachable
      (bootVfsInit [⟨cstr "a", 0x1000, 16⟩] 16 32 .cleared) _ := .init
  have found : ramfsFindFile (cstr "a")
      (bootVfsInit [⟨cstr "a", 0x1000, 16⟩] 16 32 .cleared) = some 0 := rfl
  have reads := sequentialReads atBoot (by decide) found (by decide)
    (show _ = ((3 : Nat) : Int) from rfl) demoCalls_allowed
  exact ⟨_, reads.1, reads.2⟩

end MatrixOS
