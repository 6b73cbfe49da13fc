import MatrixOS.Process
import MatrixOS.VfsAccess

namespace MatrixOS

open ByteMemory

/-!
# Names of modules

The names that `loader_init` takes from the boot loader, as `loader_find_module`
and the files of ramfs see them.  A path of ramfs loses its leading slashes and
a path under `/dev/` does not come to ramfs, so that both sides agree on the
names that begin with another character.
-/

/-- `MAX_MODULES`. -/
def maxModules : Nat := 16

/-- The size of the field `name` of `module_info_t`. -/
def moduleNameSize : Nat := 32

/-- `multiboot_module_t`; the string is `none` for the null pointer. -/
structure MultibootModule where
  modStart : Nat
  modEnd : Nat
  string : Option (List UInt8)

/-- The name of a module without a string. -/
def placeholderName (i : Nat) : List UInt8 :=
  if i = 0 then
    cstr "hello"
  else if i = 1 then
    cstr "file_test"
  else if i = 2 then
    cstr "demo"
  else
    cstr "user_program"

/-- What `loader_init` records of a module. -/
def ModuleInfo.ofMultiboot (i : Nat) (mod : MultibootModule) : ModuleInfo where
  name :=
    match mod.string with
    | some grubName => strncpy grubName (moduleNameSize - 1)
    | none => placeholderName i
  start := mod.modStart
  size := sub32 mod.modEnd mod.modStart

/-- `loader_init`. -/
def loaderInit (mods : List MultibootModule) : List ModuleInfo :=
  (mods.take maxModules).mapIdx ModuleInfo.ofMultiboot

/-- `loader_find_module`, for the index of the module. -/
def loaderFindIndex
    (name : List UInt8) (modules : List ModuleInfo) : Option Nat :=
  modules.findIdx? fun module => strcmp module.name name = 0

/-- No string of the table has a terminator inside. -/
def StringsEnd (mods : List MultibootModule) : Prop :=
  ∀ mod ∈ mods, ∀ grubName, mod.string = some grubName → 0 ∉ grubName

/-- The module is the first with its name. -/
def FirstWithName (modules : List ModuleInfo) (i : Nat) (module : ModuleInfo) :
    Prop :=
  modules[i]? = some module ∧
    ∀ earlier < i, ∀ other, modules[earlier]? = some other →
      other.name ≠ module.name

/-! ## The loader -/

section Loader

variable {mods : List MultibootModule} {modules : List ModuleInfo}
variable {module : ModuleInfo} {i : Nat}

theorem length_loaderInit_le : (loaderInit mods).length ≤ maxModules := by
  rw [loaderInit, List.length_mapIdx]
  exact List.length_take_le _ _

/-- A recorded name is a string that fits its field. -/
theorem loaderInit_name
    (strings : StringsEnd mods)
    (member : module ∈ loaderInit mods) :
    0 ∉ module.name ∧ module.name.length < moduleNameSize := by
  obtain ⟨i, bound, rfl⟩ := List.mem_mapIdx.mp member
  rw [ModuleInfo.ofMultiboot]
  have recorded : (mods.take maxModules)[i] ∈ mods :=
    List.mem_of_mem_take (List.getElem_mem bound)
  cases isString : (mods.take maxModules)[i].string with
  | some grubName =>
      have ends := strings _ recorded grubName isString
      refine ⟨fun inside => ends (List.mem_of_mem_take inside), ?_⟩
      exact Nat.lt_of_le_of_lt (List.length_take_le _ _) (by decide)
  | none =>
      change 0 ∉ placeholderName i ∧ (placeholderName i).length < moduleNameSize
      rw [placeholderName]
      split
      · decide
      · split
        · decide
        · split <;> decide

/-- The loader finds the first module with a name. -/
theorem FirstWithName.loaderFindIndex
    (first : FirstWithName modules i module)
    (ends : ∀ module ∈ modules, 0 ∉ module.name) :
    loaderFindIndex module.name modules = some i := by
  obtain ⟨isModule, earlier⟩ := first
  obtain ⟨bound, isElement⟩ := List.getElem?_eq_some_iff.mp isModule
  have member : module ∈ modules := isElement ▸ List.getElem_mem bound
  rw [MatrixOS.loaderFindIndex, List.findIdx?_eq_some_iff_getElem]
  refine ⟨bound, ?_, fun j before => ?_⟩
  · rw [isElement, decide_eq_true_eq]
    exact (strcmp_eq_zero_iff (ends _ member) (ends _ member)).mpr rfl
  · have inList : j < modules.length := before.trans bound
    have different := earlier j before _ (List.getElem?_eq_getElem inList)
    simp only [decide_eq_true_eq]
    rwa [strcmp_eq_zero_iff (ends _ (List.getElem_mem inList)) (ends _ member)]

/-- The kernel takes the module that is found. -/
theorem FirstWithName.loaderFindModule
    (first : FirstWithName modules i module)
    {state : KernelState}
    (recorded : state.modules = modules) :
    loaderFindModule module.name state = some (some module, state) := by
  obtain ⟨isModule, earlier⟩ := first
  obtain ⟨bound, isElement⟩ := List.getElem?_eq_some_iff.mp isModule
  rw [MatrixOS.loaderFindModule, recorded]
  congr 2
  rw [List.find?_eq_some_iff_getElem]
  refine ⟨by simp, i, bound, isElement, fun j before => ?_⟩
  have inList : j < modules.length := before.trans bound
  simpa using earlier j before _ (List.getElem?_eq_getElem inList)

end Loader

/-! ## The file system -/

/-- A path leads to a file of ramfs with the data of a module. -/
structure ServesModule
    (state : VfsState) (path : List UInt8) (module : ModuleInfo)
    (index : Nat) : Prop where
  data : (state.fileAt index).data = module.start
  size : (state.fileAt index).size = module.size
  stat : ∀ target, target ≠ 0 → vfsStat (some path) target state =
    (0, state.withMem (storeStat state.mem target (state.fileAt index).size
      (state.fileAt index).mode (state.fileAt index).type
      (state.filesAddr + index * ramfsFileSize)))
  opened : 0 ≤ (vfsOpen (some path) oRdonly state).1
  openFile : ∀ fd next, vfsOpen (some path) oRdonly state = (fd, next) →
    (∃ fs, (next.openFiles fd.toNat).fs = some fs ∧ fs.ops = .ramfsOps) ∧
      ramfsFileOf (next.openFiles fd.toNat).privateData next = some index

section Files

variable {mods : List MultibootModule} {modules : List ModuleInfo}
variable {module : ModuleInfo} {i ramfsNode : Nat}
variable (devfsNode : Nat) (before : VfsState)

/-- A file keeps the name of its module. -/
theorem RamfsFile.ofModule_name
    (short : module.name.length < moduleNameSize) :
    (RamfsFile.ofModule module).name = module.name := by
  have fits : module.name.length ≤ maxPath - 1 := by
    simp only [moduleNameSize, maxPath] at short ⊢
    omega
  exact List.take_of_length_le fits

/-- Without a leading slash ramfs looks where the loader does. -/
theorem ramfsFindFile_eq_loaderFindIndex
    {state : VfsState} {name : List UInt8}
    (files : state.files = modules.map RamfsFile.ofModule)
    (short : ∀ module ∈ modules, module.name.length < moduleNameSize)
    (noSlash : name.head? ≠ some 47) :
    ramfsFindFile name state = loaderFindIndex name modules := by
  have kept : name.dropWhile (· = 47) = name := by
    cases name with
    | nil => rfl
    | cons first rest =>
        have different : first ≠ 47 := fun same => noSlash (by simp [same])
        simp [different]
  have names : (modules.map RamfsFile.ofModule).map RamfsFile.name =
      modules.map ModuleInfo.name := by
    rw [List.map_map]
    exact List.map_congr_left fun module member =>
      RamfsFile.ofModule_name (short module member)
  -- both search the list of the names
  have overNames : ramfsFindFile name state =
      (state.files.map RamfsFile.name).findIdx? fun other =>
        strcmp other name = 0 := by
    rw [ramfsFindFile, kept, List.findIdx?_map]
    rfl
  rw [overNames, files, names, List.findIdx?_map]
  rfl

/-- ramfs is registered when `kmalloc` had memory for it. -/
theorem bootVfsInit_registered
    (node : ramfsNode ≠ 0) :
    vfsFindRegistered (cstr "ramfs")
        (bootVfsInit modules ramfsNode devfsNode before) =
      some ⟨cstr "ramfs", .ramfsOps⟩ := by
  rw [bootVfsInit, devfsInit, ramfsInit, vfsRegisterFs, vfsRegisterFs,
    if_neg node]
  split <;> rfl

theorem bootVfsInit_files
    (few : modules.length ≤ maxModules) :
    (bootVfsInit modules ramfsNode devfsNode before).files =
      modules.map RamfsFile.ofModule := by
  obtain ⟨fsList, boot⟩ := bootVfsInit_tables modules ramfsNode devfsNode before
  have all : modules.take maxRamfsFiles = modules :=
    List.take_of_length_le (few.trans (by decide))
  rw [boot]
  exact congrArg _ all

/-- A path that does not begin with a slash is one of ramfs. -/
theorem vfsResolveFs_noSlash
    {state : VfsState} {name : List UInt8}
    (noSlash : name.head? ≠ some 47) :
    vfsResolveFs name state = vfsFindRegistered (cstr "ramfs") state := by
  have elsewhere : ¬ UnderDev name := by
    rintro ⟨rest, rfl⟩
    exact noSlash rfl
  rw [vfsResolveFs, if_neg fun same => elsewhere ((strncmp_dev name).mp same)]

/-- The tables have room after `boot_vfs_init`. -/
theorem bootVfsInit_free (modules : List ModuleInfo) (ramfsNode : Nat) :
    findFreeFd (bootVfsInit modules ramfsNode devfsNode before) = some 3 ∧
      findRamfsHandle (bootVfsInit modules ramfsNode devfsNode before) =
        some 0 := by
  obtain ⟨fsList, boot⟩ := bootVfsInit_tables modules ramfsNode devfsNode before
  rw [boot]
  exact ⟨rfl, rfl⟩

/-- A file that is found is served. -/
theorem servesModule
    {state : VfsState} {name : List UInt8} {index : Nat}
    (resolved : vfsResolveFs name state = some ⟨cstr "ramfs", .ramfsOps⟩)
    (found : ramfsFindFile name state = some index)
    (fd : findFreeFd state = some 3)
    (handle : findRamfsHandle state = some 0)
    (file : state.fileAt index = RamfsFile.ofModule module) :
    ServesModule state name module index := by
  have readable : ¬ (oRdonly &&& oWronly ≠ 0 ∧
      (state.fileAt index).mode &&& 0o222 = 0) := fun writes => writes.1 rfl
  have opens : vfsOpen (some name) oRdonly state =
      (3, (state.withRamfsHandle 0 ⟨some index, 0⟩).withOpenFile 3
        ⟨some ⟨cstr "ramfs", .ramfsOps⟩, 0, 0, oRdonly, 1⟩) := by
    simp only [vfsOpen, resolved, fd, FileOperations.open, ramfsOpen, found,
      if_neg readable, handle]
    rfl
  refine ⟨?_, ?_, fun target nonzero => ?_, ?_, ?_⟩
  · rw [file]
    rfl
  · rw [file]
    rfl
  · simp only [vfsStat, if_neg nonzero, resolved, FileOperations.stat,
      ramfsStat, found]
  · rw [opens]
    exact show (0 : Int) ≤ 3 by decide
  · intro fd next isOpen
    rw [opens] at isOpen
    cases isOpen
    refine ⟨⟨⟨cstr "ramfs", .ramfsOps⟩, by simp, rfl⟩, ?_⟩
    simp [ramfsFileOf, maxOpenFiles, VfsState.withOpenFile]

end Files

/--
The loader finds every recorded module under its name, and a name that does
not begin with a slash leads to the file of the module.
-/
theorem loaderAgrees
    {mods : List MultibootModule}
    (strings : StringsEnd mods)
    {ramfsNode : Nat}
    (registered : ramfsNode ≠ 0)
    (devfsNode : Nat)
    (before : VfsState)
    {i : Nat} {module : ModuleInfo}
    (first : FirstWithName (loaderInit mods) i module) :
    loaderFindIndex module.name (loaderInit mods) = some i ∧
      (∀ state : KernelState, state.modules = loaderInit mods →
        loaderFindModule module.name state = some (some module, state)) ∧
      (module.name.head? ≠ some 47 → ∃ index,
        ServesModule (bootVfsInit (loaderInit mods) ramfsNode devfsNode before)
          module.name module index) := by
  have found := first.loaderFindIndex fun module member =>
    (loaderInit_name strings member).1
  refine ⟨found, fun state recorded => first.loaderFindModule recorded,
    fun noSlash => ⟨i, ?_⟩⟩
  have files : (bootVfsInit (loaderInit mods) ramfsNode devfsNode
      before).files = (loaderInit mods).map RamfsFile.ofModule :=
    bootVfsInit_files devfsNode before length_loaderInit_le
  have free := bootVfsInit_free devfsNode before (loaderInit mods) ramfsNode
  refine servesModule ?_ ?_ free.1 free.2 ?_
  · rw [vfsResolveFs_noSlash noSlash]
    exact bootVfsInit_registered devfsNode before registered
  · rw [ramfsFindFile_eq_loaderFindIndex files (fun module member =>
      (loaderInit_name strings member).2) noSlash]
    exact found
  · rw [VfsState.fileAt, files, List.getD_eq_getElem?_getD, List.getElem?_map,
      first.1]
    rfl

/-- Two modules, the second one without a string. -/
def demoModules : List MultibootModule :=
  [⟨0x200000, 0x200010, some (cstr "hello")⟩, ⟨0x201000, 0x201020, none⟩]

theorem demoModules_stringsEnd : StringsEnd demoModules := by
  intro mod member grubName isString
  simp only [demoModules, List.mem_cons, List.not_mem_nil, or_false] at member
  rcases member with rfl | rfl
  · cases isString
    decide
  · cases isString

theorem loaderAgrees_demoModules :
    loaderFindIndex (cstr "file_test") (loaderInit demoModules) = some 1 ∧
      ∃ index, ServesModule
        (bootVfsInit (loaderInit demoModules) 16 32 .cleared)
        (cstr "file_test") ⟨cstr "file_test", 0x201000, 0x20⟩ index := by
  have second : FirstWithName (loaderInit demoModules) 1
      ⟨cstr "file_test", 0x201000, 0x20⟩ := by
    refine ⟨rfl, fun earlier before other isOther => ?_⟩
    obtain rfl : earlier = 0 := by omega
    cases isOther
    decide
  have agrees := loaderAgrees demoModules_stringsEnd
    (show 16 ≠ 0 by decide) 32 .cleared second
  exact ⟨agrees.1, agrees.2.2 (by decide)⟩

/-- A module with the name of a device. -/
def deviceModules : List MultibootModule :=
  [⟨0x200000, 0x200010, some (cstr "/dev/x")⟩]

/-- The loader finds the module, and the file system looks for a device. -/
theorem not_loaderAgrees_deviceModules :
    FirstWithName (loaderInit deviceModules) 0
        ⟨cstr "/dev/x", 0x200000, 0x10⟩ ∧
      ¬ ∃ index, ServesModule
        (bootVfsInit (loaderInit deviceModules) 16 32 .cleared)
        (cstr "/dev/x") ⟨cstr "/dev/x", 0x200000, 0x10⟩ index := by
  refine ⟨⟨rfl, fun earlier before => absurd before (Nat.not_lt_zero _)⟩, ?_⟩
  rintro ⟨index, serves⟩
  have refused : (vfsOpen (some (cstr "/dev/x")) oRdonly
      (bootVfsInit (loaderInit deviceModules) 16 32 .cleared)).1 = enoent := rfl
  exact absurd (refused ▸ serves.opened) (show ¬ (0 : Int) ≤ enoent by decide)

end MatrixOS
