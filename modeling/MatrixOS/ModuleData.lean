import MatrixOS.Kmain

namespace MatrixOS

open ByteMemory Paging StateOption

/-!
# The address spaces in which files can be read

ramfs keeps for a file the address at which the boot loader has put the module,
and `ramfs_read` copies from there in the address space that is active.  The
directory of the loader maps that address to itself; the directories of the
processes have nothing there.
-/

/-- The call of `memcpy` in `ramfs_read`. -/
def ramfsReadCopy (file : RamfsFile) (buf pos toRead : Nat) : Kernel Unit :=
  memcpy virtualAccess buf (file.data + pos) toRead

/-- A module of any size where a boot loader puts it. -/
structure LoadedModule (pageDirectory : Nat) (module : ModuleInfo) : Prop where
  aligned : 2 ^ 12 ∣ module.start
  behind : 0x100000 ≤ module.start
  below : module.start < 0x1800000
  apart : module.start < pageDirectory ∨
    pageDirectory + 34 * pageSize ≤ module.start
  fits : module.start + module.size ≤ 128 * 1024 * 1024

/-! ## Pages that are not mapped -/

section Faults

variable {state : KernelState} {src : Nat}

/-- A copy does not get past a first byte that is not mapped. -/
theorem memcpy_of_not_mapped
    (missing : load8 (wrap32 src) state = none)
    (dest num : Nat) :
    memcpy virtualAccess dest src (num + 1) state = none := by
  induction num with
  | zero =>
      exact (bind_of_eq rfl).trans (bind_of_none missing)
  | succ num inductionHypothesis =>
      exact bind_of_none inductionHypothesis

/-- Between the code page and the kernel a program has nothing mapped. -/
theorem SpaceEntries.load8_between
    {frames : ProgramFrames} {bootDir virtualAddr : Nat}
    {mem : Memory}
    (entries : SpaceEntries state.mem frames (kernelHalf mem bootDir))
    (valid : frames.Valid)
    (own : state.cr3 = frames.dir)
    (past : pageSize ≤ virtualAddr)
    (low : virtualAddr < 0xC0000000) :
    load8 virtualAddr state = none := by
  have missing : translate state.mem state.cr3 virtualAddr = none := by
    rw [own]
    rcases Nat.lt_or_ge virtualAddr (2 ^ 22) with inTable | behind
    · exact entries.translate_past_code valid past inTable
    · refine entries.translate_clear behind (by omega) ?_
      rw [kernelHalf, if_neg (by omega)]
  rw [load8, KernelState.resolve, walk, missing]
  rfl

end Faults

/-! ## The directory of the loader -/

section Boot

variable {mem after : Memory} {pageDirectory : Nat}
variable {modules : List ModuleInfo}
variable (aligned : 2 ^ 12 ∣ pageDirectory)
variable (below : pageDirectory + 34 * pageSize ≤ 0x1800000)
variable (tables : Agree pageDirectory (34 * pageSize) after
  (loaderTables mem pageDirectory))
include aligned below tables

/-- The first 128 MB are mapped to themselves. -/
theorem load8_bootedKernel
    {addr : Nat}
    (inRange : addr < 128 * 1024 * 1024) :
    load8 addr (bootedKernel mem pageDirectory modules after) =
      some (after addr, bootedKernel mem pageDirectory modules after) := by
  simp only [pageSize] at below tables
  have count : pageTableCount = 32 := by decide
  have first : firstPageTable pageDirectory = pageDirectory + 4096 := rfl
  have inTables : addr / 2 ^ 22 < pageTableCount := by omega
  have leads : bootDirectoryEntry pageDirectory (addr / 2 ^ 22) =
      firstPageTable pageDirectory + addr / 2 ^ 22 * 4096 ||| 0x03 := by
    rw [bootDirectoryEntry, if_neg (by omega), if_neg (by omega),
      if_pos inTables]
  have found := translate_loaderTables mem aligned (by omega) inTables
    (by omega) leads
  have entry := entryAt_loaderTables_dir mem aligned
    (by omega) (show addr / 2 ^ 22 < 1024 by omega)
  have table := (kernelEntry (show 2 ^ 12 ∣ firstPageTable pageDirectory +
    addr / 2 ^ 22 * 4096 by omega)).2.2.2
  -- the walk reads the tables of the loader only
  have same : translate after pageDirectory addr =
      translate (loaderTables mem pageDirectory) pageDirectory addr := by
    refine translate_congr (load_congr (Windows.entry_agree (by omega)
      (tables.mono (Nat.le_refl _) (by simp only [pageSize]; omega))))
      fun _ => load_congr (Windows.entry_agree (by omega) ?_)
    rw [entry, leads, table]
    exact tables.mono (by omega) (by simp only [pageSize]; omega)
  have resolved :
      (bootedKernel mem pageDirectory modules after).resolve addr =
        some addr := by
    change walk after pageDirectory addr = some addr
    have self : addr / 2 ^ 22 * 2 ^ 22 + addr % 2 ^ 22 = addr := by omega
    rw [walk, same, found, Option.map_some, self]
  rw [load8, resolved]
  rfl

/-- The table behind the windows maps the first four pages. -/
theorem behindWindows_bootedKernel
    {apart : Nat → Prop}
    (bss : Agree (tempMappingTable pageDirectory) pageSize mem fun _ => 0)
    (behind : 0x100000 ≤ pageDirectory)
    (tableApart : apart (tempMappingTable pageDirectory))
    (pagesApart : ∀ frame, 2 ^ 12 ∣ frame → frame < 0x4000 → apart frame) :
    BehindWindows after pageDirectory apart := by
  have temp : tempMappingTable pageDirectory =
      pageDirectory + 4096 + 4096 * 32 := rfl
  simp only [pageSize] at below tables
  have kept : ∀ frame index, pageDirectory ≤ frame →
      frame + 4096 ≤ pageDirectory + 34 * 4096 → index < 1024 →
      entryAt after frame index =
        entryAt (loaderTables mem pageDirectory) frame index :=
    fun frame index above last bound =>
      load_congr (Windows.entry_agree bound (tables.mono above
        (by simp only [pageSize]; omega)))
  have dirEntry : entryAt after pageDirectory 769 =
      tempMappingTable pageDirectory ||| 0x03 := by
    rw [kept _ _ (by omega) (by omega) (by omega),
      entryAt_loaderTables_dir mem aligned (by omega) (by omega),
      bootDirectoryEntry, if_neg (by omega), if_pos rfl]
  have tableEntry : ∀ index < 1024,
      entryAt after (tempMappingTable pageDirectory) index =
        if index < 4 then index * 4096 ||| 0x03 else 0 := by
    intro index bound
    rw [kept _ _ (by omega) (by omega) bound]
    exact entryAt_loaderTables_temp mem aligned bss bound
  have dirLeads := kernelEntry
    (show 2 ^ 12 ∣ tempMappingTable pageDirectory by omega)
  rw [← dirEntry] at dirLeads
  refine .mapped (tempMappingTable pageDirectory) 4
    ⟨dirLeads.1, dirLeads.2.2.2⟩ (by omega) ?_ tableApart ?_
  · rw [tableEntry 4 (by omega), if_neg (by omega)]
    rfl
  · rintro index low frame ⟨_, rfl⟩
    have leads := kernelEntry
      (show 2 ^ 12 ∣ index * 4096 from Nat.dvd_mul_left _ _)
    rw [tableEntry index (by omega), if_pos low, leads.2.2.2]
    exact ⟨by omega, pagesApart _ (Nat.dvd_mul_left _ _) (by omega)⟩

/-- The tables and the modules are apart from what the allocator hands out. -/
theorem spaceInitial_bootedKernel
    (behind : 0x100000 ≤ pageDirectory)
    (bss : Agree (tempMappingTable pageDirectory) pageSize mem fun _ => 0)
    (loaded : ∀ module ∈ modules, LoadedModule pageDirectory module) :
    SpaceInitial (bootedKernel mem pageDirectory modules after) pageDirectory
      (firstPageTable pageDirectory) [heapBlock]
      Kmalloc.bootSys.freePages := by
  have ready := memoryReady_bootedKernel mem modules aligned below tables
  have first : firstPageTable pageDirectory = pageDirectory + 4096 := rfl
  have temp : tempMappingTable pageDirectory =
      pageDirectory + 4096 + 4096 * 32 := rfl
  simp only [pageSize] at below tables
  have notFree : ∀ frame < 0x1800000,
      frame / pageSize ∉ Kmalloc.bootSys.freePages := by
    intro frame low free
    have bounds := mem_bootSys_freePages.mp free
    simp only [pageSize] at bounds
    omega
  have outside : ∀ frame < 0x1800000,
      (∀ module ∈ modules, frame ≠ module.start) →
      Outside Kmalloc.bootSys.freePages modules frame :=
    fun frame low different => ⟨by omega, notFree _ low, different⟩
  have atTables : ∀ frame, pageDirectory ≤ frame →
      frame < pageDirectory + 34 * 4096 →
      Outside Kmalloc.bootSys.freePages modules frame := by
    refine fun frame above low => outside frame (by omega) ?_
    intro module member
    have apart := (loaded module member).apart
    simp only [pageSize] at apart
    omega
  refine ⟨⟨rfl, rfl, rfl⟩, rfl, ready.windows, heapSys_invariant,
    atTables _ (by omega) (by omega), atTables _ (by omega) (by omega),
    fun module member => ?_, fun _ => ?_⟩
  · obtain ⟨moduleAligned, _, low, _⟩ := loaded module member
    exact ⟨moduleAligned, by omega, notFree _ low⟩
  · refine behindWindows_bootedKernel aligned below tables bss (by omega)
      ⟨by omega, atTables _ (by omega) (by omega), by omega, by omega⟩ ?_
    refine fun frame frameAligned low =>
      ⟨frameAligned, outside _ (by omega) ?_, by omega, by omega⟩
    intro module member
    have above := (loaded module member).behind
    omega

end Boot

end MatrixOS
