import MatrixOS.Console
import MatrixOS.Kernel

namespace MatrixOS

open ByteMemory

/-!
# The file systems

`kernel/fs/vfs.c`, `ramfs.c` and `devfs.c`.  The calls run in an address space
in which their buffers and the data of the files are mapped, so that memory is
flat; the tables of the file systems and the screen are not part of it.  The
messages on the serial port are left out.

A path is the string a pointer leads to, or `none` for the null pointer.
-/

/-- `MAX_FS_NAME`. -/
def maxFsName : Nat := 16

/-- `MAX_PATH`. -/
def maxPath : Nat := 256

/-- `MAX_OPEN_FILES`. -/
def maxOpenFiles : Nat := 32

/-- `MAX_RAMFS_FILES`. -/
def maxRamfsFiles : Nat := 64

/-! ### Flags, file types, devices and errors -/

def oRdonly : Nat := 0x0001

def oWronly : Nat := 0x0002

def oRdwr : Nat := 0x0003

def ftRegular : Nat := 1

def ftCharDevice : Nat := 3

def deviceConsole : Int := 1

def deviceNull : Int := 2

def deviceZero : Int := 3

def enoent : Int := -1

def eacces : Int := -2

def emfile : Int := -3

def ebadf : Int := -4

def einval : Int := -5

def eio : Int := -6

def enomem : Int := -7

/-! ### The tables -/

/-- `struct ramfs_file`. -/
structure RamfsFile where
  name : List UInt8
  data : Nat
  size : Nat
  mode : Nat
  type : Nat
  deriving Repr, DecidableEq

/-- A cleared `struct ramfs_file`. -/
def RamfsFile.clear : RamfsFile where
  name := []
  data := 0
  size := 0
  mode := 0
  type := 0

/-- `sizeof(struct ramfs_file)`. -/
def ramfsFileSize : Nat := 272

/-- `struct ramfs_private`; `file` is an index into `files`. -/
structure RamfsPrivate where
  file : Option Nat
  pos : Nat
  deriving Repr, DecidableEq

/-- `struct devfs_private`. -/
structure DevfsPrivate where
  device : Int
  pos : Nat
  deriving Repr, DecidableEq

/-- The two `struct file_operations` of the kernel. -/
inductive FileOperations where
  | ramfsOps
  | devfsOps
  deriving Repr, DecidableEq

/-- `struct filesystem`. -/
structure Filesystem where
  name : List UInt8
  ops : FileOperations
  deriving Repr, DecidableEq

/-- `struct file_handle`. -/
structure FileHandle where
  fs : Option Filesystem
  privateData : Int
  pos : Nat
  flags : Nat
  refCount : Int
  deriving Repr, DecidableEq

/-- A cleared `struct file_handle`. -/
def FileHandle.clear : FileHandle where
  fs := none
  privateData := 0
  pos := 0
  flags := 0
  refCount := 0

/-- What the file systems read and write; `files` is at `filesAddr`. -/
structure VfsState where
  mem : Memory
  keyboard : Keyboard
  screen : Screen
  files : List RamfsFile
  filesAddr : Nat
  ramfsHandles : Nat → RamfsPrivate
  devfsHandles : Nat → DevfsPrivate
  fsList : List Filesystem
  openFiles : Nat → FileHandle

namespace VfsState

variable (state : VfsState)

def withMem (mem : Memory) : VfsState :=
  { state with mem := mem }

def withKeyboard (keyboard : Keyboard) : VfsState :=
  { state with keyboard := keyboard }

def withScreen (screen : Screen) : VfsState :=
  { state with screen := screen }

/-- The state with another entry in the handle table of ramfs. -/
def withRamfsHandle (handle : Nat) (entry : RamfsPrivate) : VfsState :=
  { state with
    ramfsHandles := Function.update state.ramfsHandles handle entry }

/-- The state with another entry in the handle table of devfs. -/
def withDevfsHandle (handle : Nat) (entry : DevfsPrivate) : VfsState :=
  { state with
    devfsHandles := Function.update state.devfsHandles handle entry }

/-- The state with another file handle in a descriptor. -/
def withOpenFile (fd : Nat) (fh : FileHandle) : VfsState :=
  { state with openFiles := Function.update state.openFiles fd fh }

@[simp] theorem withRamfsHandle_ramfsHandles
    (handle : Nat) (entry : RamfsPrivate) :
    (state.withRamfsHandle handle entry).ramfsHandles =
      Function.update state.ramfsHandles handle entry :=
  rfl

@[simp] theorem withDevfsHandle_devfsHandles
    (handle : Nat) (entry : DevfsPrivate) :
    (state.withDevfsHandle handle entry).devfsHandles =
      Function.update state.devfsHandles handle entry :=
  rfl

@[simp] theorem withOpenFile_openFiles (fd : Nat) (fh : FileHandle) :
    (state.withOpenFile fd fh).openFiles =
      Function.update state.openFiles fd fh :=
  rfl

/-- An entry of `files`. -/
def fileAt (index : Nat) : RamfsFile :=
  state.files.getD index RamfsFile.clear

end VfsState

/-! ## ramfs -/

/-- The index of a file in `files`. -/
def ramfsFindFile (path : List UInt8) (state : VfsState) : Option Nat :=
  let filename := path.dropWhile (· = 47)
  state.files.findIdx? fun file => strcmp file.name filename = 0

/-- The first entry of the handle table without a file. -/
def findRamfsHandle (state : VfsState) : Option Nat :=
  (List.range maxOpenFiles).find? fun handle =>
    (state.ramfsHandles handle).file = none

def ramfsOpen
    (path : List UInt8) (flags : Nat) (state : VfsState) : Int × VfsState :=
  match ramfsFindFile path state with
  | none => (enoent, state)
  | some file =>
      if flags &&& oWronly ≠ 0 ∧ (state.fileAt file).mode &&& 0o222 = 0 then
        (eacces, state)
      else
        match findRamfsHandle state with
        | none => (emfile, state)
        | some handle =>
            (handle, state.withRamfsHandle handle ⟨some file, 0⟩)

/-- The file that the handle is open on. -/
def ramfsFileOf (handle : Int) (state : VfsState) : Option Nat :=
  if handle < 0 ∨ maxOpenFiles ≤ handle then
    none
  else
    (state.ramfsHandles handle.toNat).file

def ramfsClose (handle : Int) (state : VfsState) : Int × VfsState :=
  match ramfsFileOf handle state with
  | none => (ebadf, state)
  | some _ => (0, state.withRamfsHandle handle.toNat ⟨none, 0⟩)

def ramfsRead
    (handle : Int) (buf count : Nat) (state : VfsState) : Int × VfsState :=
  match ramfsFileOf handle state with
  | none => (ebadf, state)
  | some index =>
      let priv := state.ramfsHandles handle.toNat
      let file := state.fileAt index
      if file.size ≤ priv.pos then
        (0, state)
      else
        let toRead :=
          if file.size < wrap32 (priv.pos + count) then
            file.size - priv.pos
          else
            count
        let mem :=
          memcpyFlat state.mem buf (wrap32 (file.data + priv.pos)) toRead
        (toInt toRead, (state.withMem mem).withRamfsHandle handle.toNat
          { priv with pos := wrap32 (priv.pos + toRead) })

/-- `ramfs_write`: ramfs is read only. -/
def ramfsWrite
    (_handle : Int) (_buf _count : Nat) (state : VfsState) : Int × VfsState :=
  (eacces, state)

def ramfsSeek
    (handle offset whence : Int) (state : VfsState) : Int × VfsState :=
  match ramfsFileOf handle state with
  | none => (ebadf, state)
  | some index =>
      let priv := state.ramfsHandles handle.toNat
      let file := state.fileAt index
      let target : Option Nat :=
        if whence = 0 then
          some (toWord offset)
        else if whence = 1 then
          some (wrap32 (priv.pos + toWord offset))
        else if whence = 2 then
          some (wrap32 (file.size + toWord offset))
        else
          none
      match target with
      | none => (einval, state)
      | some target =>
          let pos := if file.size < target then file.size else target
          (toInt pos,
            state.withRamfsHandle handle.toNat { priv with pos := pos })

/-- `ramfs_ioctl`: ramfs has no control requests. -/
def ramfsIoctl
    (_handle _request : Int) (_argp : Nat) (state : VfsState) :
    Int × VfsState :=
  (einval, state)

/-- A `struct file_stat` written at a pointer. -/
def storeStat (mem : Memory) (stat size mode type inode : Nat) : Memory :=
  let mem := store mem 4 stat size
  let mem := store mem 4 (stat + 4) mode
  let mem := store mem 4 (stat + 8) type
  store mem 4 (stat + 12) inode

def ramfsStat
    (path : List UInt8) (stat : Nat) (state : VfsState) : Int × VfsState :=
  match ramfsFindFile path state with
  | none => (enoent, state)
  | some index =>
      let file := state.fileAt index
      (0, state.withMem (storeStat state.mem stat file.size file.mode file.type
        (state.filesAddr + index * ramfsFileSize)))

/-! ## devfs -/

def devfsResolveDevice (path : List UInt8) : Int :=
  if strcmp path (cstr "/dev/console") = 0 then
    deviceConsole
  else if strcmp path (cstr "/dev/null") = 0 then
    deviceNull
  else if strcmp path (cstr "/dev/zero") = 0 then
    deviceZero
  else
    -1

/-- The first entry of the handle table without a device. -/
def findDevfsHandle (state : VfsState) : Option Nat :=
  (List.range maxOpenFiles).find? fun handle =>
    (state.devfsHandles handle).device = 0

def devfsOpen
    (path : List UInt8) (_flags : Nat) (state : VfsState) : Int × VfsState :=
  let device := devfsResolveDevice path
  if device = -1 then
    (enoent, state)
  else
    match findDevfsHandle state with
    | none => (emfile, state)
    | some handle => (handle, state.withDevfsHandle handle ⟨device, 0⟩)

/-- The device that the handle is open on; 0 for none. -/
def devfsDeviceOf (handle : Int) (state : VfsState) : Int :=
  if handle < 0 ∨ maxOpenFiles ≤ handle then
    0
  else
    (state.devfsHandles handle.toNat).device

def devfsClose (handle : Int) (state : VfsState) : Int × VfsState :=
  if devfsDeviceOf handle state = 0 then
    (ebadf, state)
  else
    (0, state.withDevfsHandle handle.toNat ⟨0, 0⟩)

/--
The loop of `devfs_read` on the console, by the number of characters there is
still room for.
-/
def consoleRead
    (buf : Nat) :
    (room : Nat) → (readCount : Nat) → VfsState → Nat × VfsState
  | 0, readCount, state => (readCount, state)
  | room + 1, readCount, state =>
      let (c, keyboard) := keyboardGetChar state.keyboard
      let state := state.withKeyboard keyboard
      if c ≠ 0 then
        let state := state.withMem
          (Function.update state.mem (wrap32 (buf + readCount)) c)
        if c = 10 then
          (readCount + 1, state)
        else
          consoleRead buf room (readCount + 1) state
      else
        (readCount, state)

def devfsRead
    (handle : Int) (buf count : Nat) (state : VfsState) : Int × VfsState :=
  let device := devfsDeviceOf handle state
  if device = 0 then
    (ebadf, state)
  else if device = deviceConsole then
    let (readCount, state) := consoleRead buf count 0 state
    (toInt readCount, state)
  else if device = deviceNull then
    (0, state)
  else if device = deviceZero then
    (toInt count, state.withMem (memsetFlat state.mem buf 0 count))
  else
    (eio, state)

/-- The characters of a buffer. -/
def bufferBytes (mem : Memory) (buf count : Nat) : List UInt8 :=
  (List.range count).map fun i => mem (wrap32 (buf + i))

/-- Every character of a buffer is put on the screen. -/
def putBuffer (buf count : Nat) (state : VfsState) : VfsState :=
  state.withScreen
    ((bufferBytes state.mem buf count).foldl
      (fun screen c => fbPutchar c screen) state.screen)

def devfsWrite
    (handle : Int) (buf count : Nat) (state : VfsState) : Int × VfsState :=
  let device := devfsDeviceOf handle state
  if device = 0 then
    (ebadf, state)
  else if device = deviceConsole then
    (toInt count, putBuffer buf count state)
  else if device = deviceNull then
    (toInt count, state)
  else if device = deviceZero then
    (toInt count, state)
  else
    (eio, state)

/-- `devfs_seek`: a device has no position. -/
def devfsSeek
    (_handle _offset _whence : Int) (state : VfsState) : Int × VfsState :=
  (einval, state)

def devfsIoctl
    (handle request : Int) (argp : Nat) (state : VfsState) : Int × VfsState :=
  let device := devfsDeviceOf handle state
  if device = 0 then
    (ebadf, state)
  else if device = deviceConsole ∧ request = 1 then
    (0, state.withScreen (fbClear state.screen))
  else if device = deviceConsole ∧ request = 2 ∧ argp ≠ 0 then
    (0, state.withMem (store state.mem 4 argp 0))
  else
    (einval, state)

def devfsStat
    (path : List UInt8) (stat : Nat) (state : VfsState) : Int × VfsState :=
  let device := devfsResolveDevice path
  if device = -1 then
    (enoent, state)
  else
    (0, state.withMem
      (storeStat state.mem stat 0 0o666 ftCharDevice (toWord device)))

/-! ## The operations of a file system -/

namespace FileOperations

def «open» : FileOperations → List UInt8 → Nat → VfsState → Int × VfsState
  | ramfsOps => ramfsOpen
  | devfsOps => devfsOpen

def close : FileOperations → Int → VfsState → Int × VfsState
  | ramfsOps => ramfsClose
  | devfsOps => devfsClose

def read : FileOperations → Int → Nat → Nat → VfsState → Int × VfsState
  | ramfsOps => ramfsRead
  | devfsOps => devfsRead

def write : FileOperations → Int → Nat → Nat → VfsState → Int × VfsState
  | ramfsOps => ramfsWrite
  | devfsOps => devfsWrite

def seek : FileOperations → Int → Int → Int → VfsState → Int × VfsState
  | ramfsOps => ramfsSeek
  | devfsOps => devfsSeek

def ioctl : FileOperations → Int → Int → Nat → VfsState → Int × VfsState
  | ramfsOps => ramfsIoctl
  | devfsOps => devfsIoctl

def stat : FileOperations → List UInt8 → Nat → VfsState → Int × VfsState
  | ramfsOps => ramfsStat
  | devfsOps => devfsStat

end FileOperations

/-! ## The virtual file system -/

def vfsInit (state : VfsState) : VfsState :=
  let standard (flags : Nat) : FileHandle :=
    { FileHandle.clear with flags := flags, refCount := 1 }
  { state with
    fsList := []
    openFiles := fun fd =>
      if fd = 0 then
        standard oRdonly
      else if fd = 1 ∨ fd = 2 then
        standard oWronly
      else
        FileHandle.clear }

/-- `vfs_register_fs`; `newFs` is the pointer that `kmalloc` returns. -/
def vfsRegisterFs
    (newFs : Nat) (name : List UInt8) (ops : FileOperations)
    (state : VfsState) : Int × VfsState :=
  if newFs = 0 then
    (enomem, state)
  else
    (0, { state with
      fsList := ⟨strncpy name (maxFsName - 1), ops⟩ :: state.fsList })

def vfsFindRegistered
    (fsName : List UInt8) (state : VfsState) : Option Filesystem :=
  state.fsList.find? fun fs => strcmp fs.name fsName = 0

def vfsResolveFs (path : List UInt8) (state : VfsState) : Option Filesystem :=
  let name :=
    if strncmp path (cstr "/dev/") 5 = 0 then cstr "devfs" else cstr "ramfs"
  vfsFindRegistered name state

/-- The first descriptor behind the standard ones that is not in use. -/
def findFreeFd (state : VfsState) : Option Nat :=
  (List.range' 3 (maxOpenFiles - 3)).find? fun fd =>
    (state.openFiles fd).refCount = 0

def vfsOpen
    (path : Option (List UInt8)) (flags : Nat) (state : VfsState) :
    Int × VfsState :=
  match path with
  | none => (einval, state)
  | some path =>
      match vfsResolveFs path state with
      | none => (enoent, state)
      | some fs =>
          match findFreeFd state with
          | none => (emfile, state)
          | some fd =>
              let (result, state) := fs.ops.open path flags state
              if result < 0 then
                (result, state)
              else
                (fd, state.withOpenFile fd {
                  fs := some fs
                  privateData := result
                  pos := 0
                  flags := flags
                  refCount := 1 })

/-- The descriptor is out of range or not in use. -/
def BadFd (fd : Int) (state : VfsState) : Prop :=
  fd < 0 ∨ maxOpenFiles ≤ fd ∨ (state.openFiles fd.toNat).refCount = 0

instance (fd : Int) (state : VfsState) : Decidable (BadFd fd state) :=
  inferInstanceAs (Decidable (_ ∨ _ ∨ _))

def vfsClose (fd : Int) (state : VfsState) : Int × VfsState :=
  if BadFd fd state then
    (ebadf, state)
  else
    let fh := state.openFiles fd.toNat
    let fh := { fh with refCount := fh.refCount - 1 }
    let state := state.withOpenFile fd.toNat fh
    if 0 < fh.refCount then
      (0, state)
    else
      let state :=
        match fh.fs with
        | none => state
        | some fs => (fs.ops.close fh.privateData state).2
      (0, state.withOpenFile fd.toNat FileHandle.clear)

/-- `fh->pos += result` after a transfer. -/
def advance (fd : Nat) (result : Int) (state : VfsState) : VfsState :=
  if 0 < result then
    let fh := state.openFiles fd
    state.withOpenFile fd { fh with pos := wrap32 (fh.pos + toWord result) }
  else
    state

def vfsRead
    (fd : Int) (buf count : Nat) (state : VfsState) : Int × VfsState :=
  if BadFd fd state then
    (ebadf, state)
  else
    let fh := state.openFiles fd.toNat
    if fh.flags &&& oRdonly = 0 ∧ fh.flags &&& oRdwr = 0 then
      (eacces, state)
    else
      match fh.fs with
      | none => (eio, state)
      | some fs =>
          let (result, state) := fs.ops.read fh.privateData buf count state
          (result, advance fd.toNat result state)

def vfsWrite
    (fd : Int) (buf count : Nat) (state : VfsState) : Int × VfsState :=
  if BadFd fd state then
    (ebadf, state)
  else
    let fh := state.openFiles fd.toNat
    if fh.flags &&& oWronly = 0 ∧ fh.flags &&& oRdwr = 0 then
      (eacces, state)
    else if fd = 1 ∨ fd = 2 then
      (toInt count, putBuffer buf count state)
    else
      match fh.fs with
      | none => (eio, state)
      | some fs =>
          let (result, state) := fs.ops.write fh.privateData buf count state
          (result, advance fd.toNat result state)

def vfsSeek
    (fd offset whence : Int) (state : VfsState) : Int × VfsState :=
  if BadFd fd state then
    (ebadf, state)
  else
    let fh := state.openFiles fd.toNat
    match fh.fs with
    | none => (eio, state)
    | some fs => fs.ops.seek fh.privateData offset whence state

def vfsIoctl
    (fd request : Int) (argp : Nat) (state : VfsState) : Int × VfsState :=
  if BadFd fd state then
    (ebadf, state)
  else
    let fh := state.openFiles fd.toNat
    match fh.fs with
    | none => (einval, state)
    | some fs => fs.ops.ioctl fh.privateData request argp state

def vfsStat
    (path : Option (List UInt8)) (stat : Nat) (state : VfsState) :
    Int × VfsState :=
  match path with
  | none => (einval, state)
  | some path =>
      if stat = 0 then
        (einval, state)
      else
        match vfsResolveFs path state with
        | none => (enoent, state)
        | some fs => fs.ops.stat path stat state

/-! ## The file systems at boot -/

/-- The file that `ramfs_init` makes of a module. -/
def RamfsFile.ofModule (mod : ModuleInfo) : RamfsFile where
  name := strncpy mod.name (maxPath - 1)
  data := mod.start
  size := mod.size
  mode := 0o444
  type := ftRegular

def ramfsInit
    (modules : List ModuleInfo) (newFs : Nat) (state : VfsState) : VfsState :=
  (vfsRegisterFs newFs (cstr "ramfs") .ramfsOps { state with
    files := (modules.take maxRamfsFiles).map RamfsFile.ofModule
    ramfsHandles := fun _ => ⟨none, 0⟩ }).2

def devfsInit (newFs : Nat) (state : VfsState) : VfsState :=
  (vfsRegisterFs newFs (cstr "devfs") .devfsOps { state with
    devfsHandles := fun _ => ⟨0, 0⟩ }).2

/-- `boot_vfs_init`, with the two pointers that `kmalloc` returns. -/
def bootVfsInit
    (modules : List ModuleInfo) (ramfsNode devfsNode : Nat)
    (state : VfsState) : VfsState :=
  devfsInit devfsNode (ramfsInit modules ramfsNode (vfsInit state))

end MatrixOS
