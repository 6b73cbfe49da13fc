import MatrixOS.Paging
import MatrixOS.Word

namespace MatrixOS

open ByteMemory Paging

/-!
# The page tables of the boot loader

`boot/loader.asm` fills the page directory and the 33 page tables that follow
it in `.bss`, before paging is on.  The symbols are taken at their physical
addresses.
-/

/-- `PAGE_TABLE_COUNT`. -/
def pageTableCount : Nat := 128 * 1024 * 1024 / (1024 * pageSize)

/-- `first_page_table`, behind the page directory. -/
def firstPageTable (pageDirectory : Nat) : Nat :=
  pageDirectory + pageSize

/-- `rep stosd`: `eax` in `ecx` words from `edi` on. -/
def repStosd (mem : Memory) (edi eax : Nat) : (ecx : Nat) → Memory
  | 0 => mem
  | ecx + 1 => repStosd (store mem 4 edi eax) (edi + 4) eax ecx

/--
The body of the four `loop`s: `ecx` entries from `ptr` on, for the pages from
`page` on.
-/
def fillEntries (mem : Memory) (ptr page : Nat) : (ecx : Nat) → Memory
  | 0 => mem
  | ecx + 1 =>
      fillEntries (store mem 4 ptr (page ||| 0x03)) (ptr + 4) (page + 4096) ecx

/-- The two `rep stosd` at `loader`. -/
def clearTables (mem : Memory) (pageDirectory : Nat) : Memory :=
  let mem := repStosd mem pageDirectory 0 1024
  repStosd mem (firstPageTable pageDirectory) 0 (1024 * pageTableCount)

/-- `.setup_identity_pagedir`. -/
def setupIdentityPagedir (mem : Memory) (pageDirectory : Nat) : Memory :=
  fillEntries mem pageDirectory (firstPageTable pageDirectory) pageTableCount

/-- `.fill_identity`. -/
def fillIdentity (mem : Memory) (pageDirectory : Nat) : Memory :=
  fillEntries mem (firstPageTable pageDirectory) 0 (1024 * pageTableCount)

/-- `.setup_high_half_pagedir`. -/
def setupHighHalfPagedir (mem : Memory) (pageDirectory : Nat) : Memory :=
  fillEntries mem (pageDirectory + 768 * 4) (firstPageTable pageDirectory)
    pageTableCount

/-- The store of the directory's own entry. -/
def setSelfMapping (mem : Memory) (pageDirectory : Nat) : Memory :=
  store mem 4 (pageDirectory + 1023 * 4) (pageDirectory ||| 0x03)

/-- The table behind the others. -/
def tempMappingTable (pageDirectory : Nat) : Nat :=
  firstPageTable pageDirectory + 4096 * 32

/-- The store of entry 769 and `.fill_temp_mapping`. -/
def fillTempMapping (mem : Memory) (pageDirectory : Nat) : Memory :=
  let mem := store mem 4 (pageDirectory + 769 * 4)
    (tempMappingTable pageDirectory ||| 0x03)
  fillEntries mem (tempMappingTable pageDirectory) 0 4

/-- The memory when `cr3` is loaded. -/
def loaderTables (mem : Memory) (pageDirectory : Nat) : Memory :=
  let mem := clearTables mem pageDirectory
  let mem := setupIdentityPagedir mem pageDirectory
  let mem := fillIdentity mem pageDirectory
  let mem := setupHighHalfPagedir mem pageDirectory
  let mem := setSelfMapping mem pageDirectory
  fillTempMapping mem pageDirectory

/-! ## The loops -/

section Loops

variable {mem : Memory} {ptr page count index : Nat}

theorem repStosd_zero :
    repStosd mem ptr 0 count = fill mem ptr (4 * count) 0 := by
  induction count generalizing mem ptr with
  | zero =>
      exact fill_zero.symm
  | succ count inductionHypothesis =>
      rw [repStosd, inductionHypothesis]
      funext target
      by_cases later : InRange (ptr + 4) (4 * count) target
      · have inside : InRange ptr (4 * (count + 1)) target := by
          simp only [InRange] at later ⊢
          omega
        rw [fill_of_inRange later, fill_of_inRange inside]
      · rw [fill_of_not_inRange later]
        by_cases first : InRange ptr 4 target
        · have inside : InRange ptr (4 * (count + 1)) target := by
            simp only [InRange] at first ⊢
            omega
          rw [fill_of_inRange inside, store, if_pos first, Nat.zero_div]
          rfl
        · have outside : ¬ InRange ptr (4 * (count + 1)) target := by
            simp only [InRange] at later first ⊢
            omega
          rw [fill_of_not_inRange outside, store_of_not_inRange first]

theorem fillEntries_outside
    {target : Nat}
    (outside : ¬ InRange ptr (4 * count) target) :
    fillEntries mem ptr page count target = mem target := by
  induction count generalizing mem ptr page with
  | zero =>
      rfl
  | succ count inductionHypothesis =>
      rw [fillEntries, inductionHypothesis, store_of_not_inRange]
      · simp only [InRange] at outside ⊢
        omega
      · simp only [InRange] at outside ⊢
        omega

theorem agree_fillEntries
    {first length : Nat}
    (apart : first + length ≤ ptr ∨ ptr + 4 * count ≤ first) :
    Agree first length (fillEntries mem ptr page count) mem := by
  intro target inside
  apply fillEntries_outside
  simp only [InRange] at inside ⊢
  omega

theorem load_fillEntries
    (bound : index < count) :
    load (fillEntries mem ptr page count) 4 (ptr + index * 4) =
      (page + index * 4096 ||| 0x03) % 256 ^ 4 := by
  induction count generalizing mem ptr page index with
  | zero =>
      exact absurd bound (Nat.not_lt_zero _)
  | succ count inductionHypothesis =>
      rw [fillEntries]
      cases index with
      | zero =>
          simp only [Nat.zero_mul, Nat.add_zero]
          rw [load_congr (agree_fillEntries (by omega)), load_store]
      | succ index =>
          have shifted : ptr + (index + 1) * 4 = ptr + 4 + index * 4 := by
            omega
          have nextPage : page + (index + 1) * 4096 =
              page + 4096 + index * 4096 := by
            omega
          rw [shifted, nextPage]
          exact inductionHypothesis (by omega)

end Loops

/-! ## The entries -/

/-- The directory entries the loader leaves. -/
def bootDirectoryEntry (pageDirectory index : Nat) : Nat :=
  if index = 1023 then pageDirectory ||| 0x03
  else if index = 769 then tempMappingTable pageDirectory ||| 0x03
  else if index < pageTableCount then
    firstPageTable pageDirectory + index * 4096 ||| 0x03
  else if 768 ≤ index ∧ index < 768 + pageTableCount then
    firstPageTable pageDirectory + (index - 768) * 4096 ||| 0x03
  else 0

section Entries

variable (mem : Memory) {pageDirectory index : Nat}
variable (aligned : 2 ^ 12 ∣ pageDirectory)
include aligned

theorem entryAt_loaderTables_dir
    (inRange : pageDirectory + 34 * 4096 ≤ 2 ^ 32)
    (bound : index < 1024) :
    entryAt (loaderTables mem pageDirectory) pageDirectory index =
      bootDirectoryEntry pageDirectory index := by
  have tables : pageTableCount = 32 := by decide
  have first : firstPageTable pageDirectory = pageDirectory + 4096 := rfl
  have temp : tempMappingTable pageDirectory =
      pageDirectory + 4096 + 4096 * 32 := rfl
  have entry : ∀ page, 2 ^ 12 ∣ page → page ≤ pageDirectory + 33 * 4096 →
      (page ||| 0x03) % 256 ^ 4 = page ||| 0x03 :=
    fun page pageAligned below =>
      or_flags_mod pageAligned (by omega) (by decide)
  have entryPtr : entryAddr pageDirectory index = pageDirectory + index * 4 :=
    rfl
  simp only [loaderTables, fillTempMapping]
  rw [entryAt, load_congr (agree_fillEntries (by omega)), bootDirectoryEntry]
  by_cases self : index = 1023
  · rw [if_pos self, load_store_of_disjoint (by omega), setSelfMapping,
      entryPtr, self, load_store]
    exact entry _ aligned (by omega)
  rw [if_neg self]
  by_cases tempMapping : index = 769
  · rw [if_pos tempMapping, entryPtr, tempMapping, load_store]
    exact entry _ (by omega) (by omega)
  rw [if_neg tempMapping, load_store_of_disjoint (by omega), setSelfMapping,
    load_store_of_disjoint (by omega), setupHighHalfPagedir]
  by_cases low : index < pageTableCount
  · rw [if_pos low, load_congr (agree_fillEntries (by omega)), fillIdentity,
      load_congr (agree_fillEntries (by omega)), setupIdentityPagedir, entryPtr,
      load_fillEntries low]
    exact entry _ (by omega) (by omega)
  rw [if_neg low]
  by_cases high : 768 ≤ index ∧ index < 768 + pageTableCount
  · have shifted : entryAddr pageDirectory index =
        pageDirectory + 768 * 4 + (index - 768) * 4 := by
      omega
    rw [if_pos high, shifted, load_fillEntries (by omega)]
    exact entry _ (by omega) (by omega)
  · rw [if_neg high, load_congr (agree_fillEntries (by omega)), fillIdentity,
      load_congr (agree_fillEntries (by omega)), setupIdentityPagedir,
      load_congr (agree_fillEntries (by omega)), clearTables, repStosd_zero,
      repStosd_zero, load_congr (agree_fill (by omega))]
    exact load_fill_zero (by omega) (by omega)

/-- Memory outside the directory and its tables is kept. -/
theorem agree_loaderTables
    {first count : Nat}
    (apart : first + count ≤ pageDirectory ∨
      pageDirectory + 34 * 4096 ≤ first) :
    Agree first count (loaderTables mem pageDirectory) mem := by
  have tables : pageTableCount = 32 := by decide
  have firstTable : firstPageTable pageDirectory = pageDirectory + 4096 := rfl
  have temp : tempMappingTable pageDirectory =
      pageDirectory + 4096 + 4096 * 32 := rfl
  simp only [loaderTables, fillTempMapping, setSelfMapping,
    setupHighHalfPagedir, fillIdentity, setupIdentityPagedir, clearTables,
    repStosd_zero]
  refine (agree_fillEntries (by omega)).trans ((agree_store (by omega)).trans
    ((agree_store (by omega)).trans ((agree_fillEntries (by omega)).trans
      ((agree_fillEntries (by omega)).trans
        ((agree_fillEntries (by omega)).trans
          ((agree_fill (by omega)).trans (agree_fill (by omega))))))))

/-- The first 32 tables hold the identity mapping. -/
theorem entryAt_loaderTables_identity
    {table : Nat}
    (tableBound : table < pageTableCount)
    (bound : index < 1024) :
    entryAt (loaderTables mem pageDirectory)
        (firstPageTable pageDirectory + table * 4096) index =
      (table * 1024 + index) * 4096 ||| 0x03 := by
  have tables : pageTableCount = 32 := by decide
  have first : firstPageTable pageDirectory = pageDirectory + 4096 := rfl
  have temp : tempMappingTable pageDirectory =
      pageDirectory + 4096 + 4096 * 32 := rfl
  have shifted : entryAddr (firstPageTable pageDirectory + table * 4096) index =
      firstPageTable pageDirectory + (table * 1024 + index) * 4 := by
    simp only [entryAddr]
    omega
  simp only [loaderTables, fillTempMapping]
  rw [entryAt, shifted, load_congr (agree_fillEntries (by omega)),
    load_store_of_disjoint (by omega), setSelfMapping,
    load_store_of_disjoint (by omega), setupHighHalfPagedir,
    load_congr (agree_fillEntries (by omega)), fillIdentity,
    load_fillEntries (by omega), Nat.zero_add]
  exact or_flags_mod (Nat.dvd_mul_left _ _) (by omega) (by decide)

/-- The table behind them has four entries, if `.bss` is clear. -/
theorem entryAt_loaderTables_temp
    (bss : Agree (tempMappingTable pageDirectory) pageSize mem fun _ => 0)
    (bound : index < 1024) :
    entryAt (loaderTables mem pageDirectory) (tempMappingTable pageDirectory)
        index =
      if index < 4 then index * 4096 ||| 0x03 else 0 := by
  have tables : pageTableCount = 32 := by decide
  have first : firstPageTable pageDirectory = pageDirectory + 4096 := rfl
  have temp : tempMappingTable pageDirectory =
      pageDirectory + 4096 + 4096 * 32 := rfl
  have entryPtr : entryAddr (tempMappingTable pageDirectory) index =
      tempMappingTable pageDirectory + index * 4 := rfl
  simp only [loaderTables, fillTempMapping]
  rw [entryAt, entryPtr]
  by_cases filled : index < 4
  · rw [if_pos filled, load_fillEntries filled, Nat.zero_add]
    exact or_flags_mod (Nat.dvd_mul_left _ _) (by omega) (by decide)
  · rw [if_neg filled, load_congr (agree_fillEntries (by omega)),
      load_store_of_disjoint (by omega), setSelfMapping,
      load_store_of_disjoint (by omega), setupHighHalfPagedir,
      load_congr (agree_fillEntries (by omega)), fillIdentity,
      load_congr (agree_fillEntries (by omega)), setupIdentityPagedir,
      load_congr (agree_fillEntries (by omega)), clearTables, repStosd_zero,
      repStosd_zero, load_congr (agree_fill (by omega)),
      load_congr (agree_fill (by omega)),
      load_congr (bss.mono (by omega) (by simp only [pageSize]; omega))]
    rfl

end Entries

/-! ## Walks -/

section Walks

variable (mem : Memory) {pageDirectory : Nat}
variable (aligned : 2 ^ 12 ∣ pageDirectory)
variable (inRange : pageDirectory + 34 * 4096 ≤ 2 ^ 32)
include aligned inRange

/-- Through the first 32 tables a virtual address leads to one frame. -/
theorem translate_loaderTables
    {virtualAddr table : Nat}
    (tableBound : table < pageTableCount)
    (small : virtualAddr < 2 ^ 32)
    (leads : bootDirectoryEntry pageDirectory (virtualAddr / 2 ^ 22) =
      firstPageTable pageDirectory + table * 4096 ||| 0x03) :
    translate (loaderTables mem pageDirectory) pageDirectory virtualAddr =
      some ⟨table * 2 ^ 22 + virtualAddr % 2 ^ 22, true, false⟩ := by
  have first : firstPageTable pageDirectory = pageDirectory + 4096 := rfl
  obtain ⟨dirPresent, dirWritable, dirUser, dirFrame⟩ :=
    kernelEntry (show 2 ^ 12 ∣ firstPageTable pageDirectory + table * 4096 by
      omega)
  obtain ⟨pagePresent, pageWritable, pageUser, pageFrame⟩ :=
    kernelEntry (show 2 ^ 12 ∣
      (table * 1024 + virtualAddr / 2 ^ 12 % 2 ^ 10) * 4096 from
        Nat.dvd_mul_left _ _)
  have dirEntry := (entryAt_loaderTables_dir mem aligned inRange
    (show virtualAddr / 2 ^ 22 < 1024 by omega)).trans leads
  have tableEntry := entryAt_loaderTables_identity mem aligned
    tableBound (show virtualAddr / 2 ^ 12 % 2 ^ 10 < 1024 by omega)
  rw [← dirFrame] at tableEntry
  rw [walk_of_entries dirEntry tableEntry dirPresent pagePresent, pageFrame,
    dirWritable, pageWritable, dirUser, pageUser]
  have sum : (table * 1024 + virtualAddr / 2 ^ 12 % 2 ^ 10) * 4096 +
      virtualAddr % 2 ^ 12 = table * 2 ^ 22 + virtualAddr % 2 ^ 22 := by
    omega
  rw [sum]
  rfl

/-- The directory's last entry leads back to the directory. -/
theorem walk_loaderTables_self
    {offset : Nat}
    (inPage : offset < pageSize) :
    walk (loaderTables mem pageDirectory) pageDirectory (0xFFFFF000 + offset) =
      some (pageDirectory + offset) := by
  simp only [pageSize] at inPage
  obtain ⟨selfPresent, _, _, selfFrame⟩ := kernelEntry aligned
  have selfEntry := entryAt_loaderTables_dir mem aligned inRange
    (show 1023 < 1024 by omega)
  have value : bootDirectoryEntry pageDirectory 1023 = pageDirectory ||| 0x03 :=
    if_pos rfl
  rw [value] at selfEntry
  have dirIndex : (0xFFFFF000 + offset) / 2 ^ 22 = 1023 := by omega
  have tabIndex : (0xFFFFF000 + offset) / 2 ^ 12 % 2 ^ 10 = 1023 := by omega
  have low : (0xFFFFF000 + offset) % 2 ^ 12 = offset := by omega
  have tableEntry := selfEntry
  rw [← tabIndex] at tableEntry
  nth_rewrite 2 [← selfFrame] at tableEntry
  rw [← dirIndex] at selfEntry
  rw [walk, walk_of_entries selfEntry tableEntry selfPresent selfPresent,
    Option.map_some, selfFrame, low]

/-- Entry 769 leads to four pages. -/
theorem walk_loaderTables_temp
    (bss : Agree (tempMappingTable pageDirectory) pageSize mem fun _ => 0)
    {virtualAddr addr : Nat}
    (region : virtualAddr / 2 ^ 22 = 769)
    (leads : walk (loaderTables mem pageDirectory) pageDirectory virtualAddr =
      some addr) :
    addr = virtualAddr % 2 ^ 22 ∧ addr < 4 * pageSize := by
  have temp : tempMappingTable pageDirectory =
      pageDirectory + 4096 + 4096 * 32 := rfl
  obtain ⟨_, _, _, dirFrame⟩ :=
    kernelEntry (show 2 ^ 12 ∣ tempMappingTable pageDirectory by omega)
  have dirEntry := entryAt_loaderTables_dir mem aligned inRange
    (show virtualAddr / 2 ^ 22 < 1024 by omega)
  have value : bootDirectoryEntry pageDirectory (virtualAddr / 2 ^ 22) =
      tempMappingTable pageDirectory ||| 0x03 := by
    rw [region, bootDirectoryEntry, if_neg (by decide), if_pos rfl]
  have tableEntry := entryAt_loaderTables_temp mem aligned bss
    (show virtualAddr / 2 ^ 12 % 2 ^ 10 < 1024 by omega)
  rw [value] at dirEntry
  obtain ⟨_, frame, ⟨_, rfl⟩, ⟨pagePresent, rfl⟩, rfl⟩ :=
    pointsTo_of_walk leads
  rw [dirEntry, dirFrame, tableEntry] at pagePresent ⊢
  by_cases filled : virtualAddr / 2 ^ 12 % 2 ^ 10 < 4
  · obtain ⟨_, _, _, pageFrame⟩ :=
      kernelEntry (show 2 ^ 12 ∣ virtualAddr / 2 ^ 12 % 2 ^ 10 * 4096 from
        Nat.dvd_mul_left _ _)
    rw [if_pos filled, pageFrame]
    simp only [pageSize]
    omega
  · rw [if_neg filled] at pagePresent
    cases pagePresent

end Walks

/-! ## What the loader maps -/

/-- What a physical address should be mapped from when paging is enabled. -/
structure BootMapped (mem : Memory) (dir physicalAddr : Nat) : Prop where
  identity : ∃ translation, translate mem dir physicalAddr = some translation ∧
    translation.addr = physicalAddr ∧ translation.writable = true
  highHalf : ∃ translation,
    translate mem dir (0xC0000000 + physicalAddr) = some translation ∧
      translation.addr = physicalAddr ∧ translation.writable = true
  self : ∀ offset < pageSize,
    walk mem dir (0xFFFFF000 + offset) = some (dir + offset)

/-- The high half lacks the second 4 MB: entry 769 is given away again. -/
theorem not_bootMapped
    {mem : Memory} {pageDirectory physicalAddr : Nat}
    (aligned : 2 ^ 12 ∣ pageDirectory)
    (inRange : pageDirectory + 34 * 4096 ≤ 2 ^ 32)
    (bss : Agree (tempMappingTable pageDirectory) pageSize mem fun _ => 0)
    (lower : 4 * 1024 * 1024 ≤ physicalAddr)
    (upper : physicalAddr < 8 * 1024 * 1024) :
    ¬ BootMapped (loaderTables mem pageDirectory) pageDirectory
      physicalAddr := by
  intro built
  obtain ⟨translation, found, leads, _⟩ := built.highHalf
  have walked : walk (loaderTables mem pageDirectory) pageDirectory
      (0xC0000000 + physicalAddr) = some translation.addr := by
    rw [walk, found]
    rfl
  have short := (walk_loaderTables_temp mem aligned inRange bss
    (show (0xC0000000 + physicalAddr) / 2 ^ 22 = 769 by omega) walked).2
  simp only [pageSize] at short
  omega

/-- The loader maps exactly the physical addresses outside the second 4 MB. -/
theorem bootMapped_iff
    {mem : Memory} {pageDirectory physicalAddr : Nat}
    (aligned : 2 ^ 12 ∣ pageDirectory)
    (inRange : pageDirectory + 34 * 4096 ≤ 2 ^ 32)
    (bss : Agree (tempMappingTable pageDirectory) pageSize mem fun _ => 0)
    (mapped : physicalAddr < 128 * 1024 * 1024) :
    BootMapped (loaderTables mem pageDirectory) pageDirectory physicalAddr ↔
      ¬ (4 * 1024 * 1024 ≤ physicalAddr ∧ physicalAddr < 8 * 1024 * 1024) := by
  have tables : pageTableCount = 32 := by decide
  constructor
  · rintro built ⟨lower, upper⟩
    exact not_bootMapped aligned inRange bss lower upper built
  · intro outside
    refine ⟨?_, ?_, fun offset => walk_loaderTables_self mem aligned inRange⟩
    · refine ⟨_, translate_loaderTables mem aligned inRange
        (show physicalAddr / 2 ^ 22 < pageTableCount by omega) (by omega) ?_,
        by simp only; omega, rfl⟩
      rw [bootDirectoryEntry, if_neg (by omega), if_neg (by omega),
        if_pos (by omega)]
    · refine ⟨_, translate_loaderTables mem aligned inRange
        (show physicalAddr / 2 ^ 22 < pageTableCount by omega) (by omega) ?_,
        by simp only; omega, rfl⟩
      rw [bootDirectoryEntry, if_neg (by omega), if_neg (by omega),
        if_neg (by omega), if_pos (by omega)]
      have index : (0xC0000000 + physicalAddr) / 2 ^ 22 - 768 =
          physicalAddr / 2 ^ 22 := by
        omega
      rw [index]

/-- The kernel is loaded behind the first megabyte. -/
theorem bootMapped_kernel :
    BootMapped (loaderTables (fun _ => 0) 0x110000) 0x110000 0x100000 :=
  (bootMapped_iff (by omega) (by omega) (Agree.refl _)
    (by omega)).mpr (by omega)

theorem not_bootMapped_second :
    ¬ BootMapped (loaderTables (fun _ => 0) 0x110000) 0x110000 0x400000 :=
  not_bootMapped (by omega) (by omega) (Agree.refl _) (by omega)
    (by omega)

end MatrixOS
