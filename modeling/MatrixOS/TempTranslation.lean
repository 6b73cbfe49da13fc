import MatrixOS.TempRuns

namespace MatrixOS

open ByteMemory Paging StateOption

/-!
# What temporary mappings leave alone

The mapping functions write to four entries of one page table.  Which virtual
addresses see them depends on the directory: every entry that leads to this
table gives them another name.
-/

/-! ## Translations -/

/-- A walk that does not read the entry of a window is the same. -/
theorem translate_of_sameOffWindows
    {windowTable dir virtualAddr : Nat} {changed mem : Memory}
    (same : SameOffWindows windowTable changed mem)
    (tableAligned : 2 ^ 12 ∣ windowTable)
    (dirAligned : 2 ^ 12 ∣ dir)
    (different : dir ≠ windowTable)
    (small : virtualAddr < 2 ^ 32)
    (outside : present (entryAt mem dir (virtualAddr / 2 ^ 22)) = true →
      frameOf (entryAt mem dir (virtualAddr / 2 ^ 22)) = windowTable →
        virtualAddr / 2 ^ 12 % 2 ^ 10 < 1020) :
    translate changed dir virtualAddr = translate mem dir virtualAddr := by
  refine translate_congr
    (same.entryAt_eq tableAligned dirAligned different (by omega))
    fun isPresent => ?_
  have frameAligned :
      2 ^ 12 ∣ frameOf (entryAt mem dir (virtualAddr / 2 ^ 22)) :=
    Nat.dvd_mul_left _ _
  by_cases isTable :
      frameOf (entryAt mem dir (virtualAddr / 2 ^ 22)) = windowTable
  · have low := outside isPresent isTable
    refine load_congr fun address inside => same address ?_
    rw [isTable] at inside
    simp only [InRange, entryAddr] at inside ⊢
    omega
  · exact same.entryAt_eq tableAligned frameAligned isTable (by omega)

/-! ## Any calls -/

/-- What every run keeps, whatever is mapped and unmapped. -/
structure TempKept
    (initial : KernelState) (run : TempRun) (kernelDir windowTable : Nat) :
    Prop where
  paging : KernelPaging run.state.mem run.state.cr3 kernelDir windowTable
  slots : ∃ used, Slots run.state.tempMgr used
  sameDir : run.state.cr3 = initial.cr3
  same : SameOffWindows windowTable run.state.mem initial.mem

section Runs

variable {initial : KernelState} {run next : TempRun}
variable {kernelDir windowTable : Nat}

theorem TempKept.withWindow
    (kept : TempKept initial run kernelDir windowTable)
    (start : TempInitial initial kernelDir windowTable)
    {slot : Nat}
    (inTable : slot < tempMappingCount)
    (entry : Nat)
    {mgr : TempMappingManager} {used : Nat → Bool}
    (slots : Slots mgr used)
    (latest : Nat → Option Nat) :
    TempKept initial ⟨run.state.withWindow windowTable slot entry mgr, latest⟩
      kernelDir windowTable where
  paging := by
    refine kept.paging.sameOffWindows (kept.sameDir ▸ start.dirAligned)
      (kept.sameDir ▸ start.tableApart) ?_
    exact SameOffWindows.windowEntry _ inTable entry
  slots := ⟨used, slots⟩
  sameDir := kept.sameDir
  same := (SameOffWindows.windowEntry _ inTable entry).trans kept.same

/-- One call, on any address. -/
theorem TempKept.call
    (kept : TempKept initial run kernelDir windowTable)
    (start : TempInitial initial kernelDir windowTable)
    {request : TempCall}
    (performed : request.perform run = some next) :
    TempKept initial next kernelDir windowTable := by
  obtain ⟨used, slots⟩ := kept.slots
  cases request with
  | map page =>
      rcases tempMapPage_cases kept.paging slots page with
        ⟨done, _⟩ | ⟨slot, inTable, _, _, mgr, taken, done⟩
      · have same : run = next := by
          simpa [TempCall.perform, done] using performed
        exact same ▸ kept
      · rw [TempCall.perform_map_of_eq _ done (windowAddr_ne_zero inTable)]
          at performed
        obtain rfl := Option.some.inj performed
        exact kept.withWindow start inTable _ taken _
  | unmap virtualAddr =>
      rcases tempUnmapPage_cases kept.paging slots virtualAddr with
        ⟨done, _⟩ |
          ⟨_, _, cleared, clearedInTable, _, _, mgr, given, done⟩
      · have same : run = next := by
          simpa [TempCall.perform, done] using performed
        exact same ▸ kept
      · have result : next =
            ⟨run.state.withWindow windowTable cleared 0 mgr, run.latest⟩ := by
          simpa [TempCall.perform, done] using performed.symm
        rw [result]
        exact kept.withWindow start clearedInTable 0 given _

theorem TempReachable.kept
    {permitted : TempCall → Prop}
    (reached : TempReachable permitted initial run)
    (start : TempInitial initial kernelDir windowTable) :
    TempKept initial run kernelDir windowTable := by
  induction reached with
  | init =>
      exact ⟨start.paging, ⟨_, start.windows.slots⟩, rfl,
        SameOffWindows.refl _⟩
  | call request _ _ performed inductionHypothesis =>
      exact inductionHypothesis.call start performed

/-- Any number of windows can be filled with one page. -/
theorem TempInitial.fill
    (start : TempInitial initial kernelDir windowTable)
    {page : Nat}
    (aligned : 2 ^ 12 ∣ page)
    (inRange : page + 2 ^ 12 ≤ 2 ^ 32)
    {count : Nat}
    (bound : count ≤ tempMappingCount) :
    ∃ run, TempReachable TempCall.Page initial run ∧
      Windows run.state kernelDir windowTable fun slot =>
        if slot < count then some page else none := by
  induction count with
  | zero =>
      refine ⟨_, .init, ?_⟩
      simpa using start.windows
  | succ count inductionHypothesis =>
      obtain ⟨run, reached, windows⟩ := inductionHypothesis (by omega)
      obtain ⟨mgr, done, mapped⟩ := windows.map
        (show count < tempMappingCount by omega) (if_neg (by omega))
        (fun lower below => by simp [below]) aligned inRange
      have performed := TempCall.perform_map_of_eq run.latest done
        (windowAddr_ne_zero (by omega))
      have inWord : page < 2 ^ 32 := by omega
      refine ⟨_, .call (.map page) reached inWord performed, ?_⟩
      convert mapped using 1
      funext slot
      by_cases last : slot = count
      · simp [last]
      · rw [Function.update_of_ne last]
        exact if_congr (by omega) rfl rfl

end Runs

/-! ## The page tables of the loader -/

/-- The pages that entry 0 gives the windows a second name for. -/
def LowAlias (virtualAddr : Nat) : Prop :=
  0x3FC000 ≤ virtualAddr ∧ virtualAddr < 0x400000

/-- No call changes where a virtual address leads under the boot directory. -/
def TranslationKept (initial : KernelState) (virtualAddr : Nat) : Prop :=
  ∀ run, TempReachable TempCall.Word initial run →
    translate run.state.mem initial.cr3 virtualAddr =
      translate initial.mem initial.cr3 virtualAddr

section Boot

variable {mem : Memory} {pageDirectory virtualAddr : Nat}
variable {modules : List ModuleInfo}
variable (aligned : 2 ^ 12 ∣ pageDirectory)
variable (inRange : pageDirectory + 34 * 4096 ≤ 2 ^ 32)
include aligned inRange

/-- Entries 0 and 768 lead to the table of the windows, and no others. -/
theorem boot_windowTable_entries
    {index : Nat}
    (bound : index < 1024)
    (leads : frameOf (bootDirectoryEntry pageDirectory index) =
      firstPageTable pageDirectory) :
    index = 0 ∨ index = 768 := by
  have tables : pageTableCount = 32 := by decide
  have first : firstPageTable pageDirectory = pageDirectory + 4096 := rfl
  have temp : tempMappingTable pageDirectory =
      pageDirectory + 4096 + 4096 * 32 := rfl
  have frame : ∀ page, 2 ^ 12 ∣ page → frameOf (page ||| 0x03) = page :=
    fun page pageAligned => (kernelEntry pageAligned).2.2.2
  rw [bootDirectoryEntry] at leads
  split at leads
  · rw [frame _ aligned] at leads
    omega
  split at leads
  · rw [frame _ (by omega)] at leads
    omega
  split at leads
  · rw [frame _ (by omega)] at leads
    omega
  split at leads
  · rw [frame _ (by omega)] at leads
    omega
  · have zero : frameOf 0 = 0 := rfl
    omega

/-- Through entry 0 the pages of the windows have a second name. -/
theorem not_translationKept
    (low : LowAlias virtualAddr) :
    ¬ TranslationKept (bootKernel mem pageDirectory modules) virtualAddr := by
  intro kept
  obtain ⟨lower, upper⟩ := low
  have start := tempInitial_bootKernel mem modules aligned inRange
  have tables : pageTableCount = 32 := by decide
  have count : tempMappingCount = 4 := rfl
  have first : firstPageTable pageDirectory = pageDirectory + 4096 := rfl
  obtain ⟨slot, slotIs⟩ : ∃ slot, 1023 - virtualAddr / 2 ^ 12 = slot := ⟨_, rfl⟩
  obtain ⟨run, reached, windows⟩ :=
    start.fill (Nat.dvd_zero (2 ^ 12)) (by omega)
      (show slot + 1 ≤ tempMappingCount by omega)
  have mapped := windows.mapped slot (by omega) 0 (if_pos (by omega))
  have zeroIndex : virtualAddr / 2 ^ 22 = 0 := by omega
  have entryZero : bootDirectoryEntry pageDirectory 0 =
      firstPageTable pageDirectory + 0 * 4096 ||| 0x03 := by
    rw [bootDirectoryEntry, if_neg (by decide), if_neg (by decide),
      if_pos (by omega)]
  have before := translate_loaderTables mem aligned inRange
    (show 0 < pageTableCount by omega) (show virtualAddr < 2 ^ 32 by omega)
    (zeroIndex.symm ▸ entryZero)
  have sameEntry := (reached.kept start).same.entryAt_eq
    windows.windowTable_aligned aligned (by omega) (show 0 < 1024 by omega)
  have dirEntry : PointsTo run.state.mem pageDirectory (virtualAddr / 2 ^ 22)
      (firstPageTable pageDirectory) := by
    have entry := kernelEntry
      (show 2 ^ 12 ∣ firstPageTable pageDirectory + 0 * 4096 by omega)
    have loaded : entryAt (bootKernel mem pageDirectory modules).mem
        pageDirectory 0 = bootDirectoryEntry pageDirectory 0 :=
      entryAt_loaderTables_dir mem aligned inRange (by omega)
    rw [PointsTo, zeroIndex, sameEntry, loaded, entryZero]
    exact ⟨entry.1, entry.2.2.2⟩
  have tableIndex : virtualAddr / 2 ^ 12 % 2 ^ 10 = 1023 - slot := by omega
  have after := walk_of_pointsTo dirEntry (tableIndex ▸ mapped)
  have unchanged := kept run (reached.mono fun request page => page.word)
  have wasThere : walk run.state.mem pageDirectory virtualAddr =
      some (0 * 2 ^ 22 + virtualAddr % 2 ^ 22) := by
    rw [walk, ← bootKernel_cr3 mem pageDirectory modules, unchanged]
    exact congrArg (Option.map Translation.addr) before
  have addresses := Option.some.inj (after.symm.trans wasThere)
  omega

/--
Outside the windows, the calls leave a virtual address alone exactly when it
is not the second name of a page of the windows.
-/
theorem translationKept_iff
    (small : virtualAddr < 2 ^ 32)
    (outside : ∀ slot < tempMappingCount,
      virtualAddr / pageSize ≠ windowAddr slot / pageSize) :
    TranslationKept (bootKernel mem pageDirectory modules) virtualAddr ↔
      ¬ LowAlias virtualAddr := by
  constructor
  · exact fun kept low => not_translationKept aligned inRange low kept
  · intro notLow run reached
    have start := tempInitial_bootKernel mem modules aligned inRange
    have first : firstPageTable pageDirectory = pageDirectory + 4096 := rfl
    refine translate_of_sameOffWindows (reached.kept start).same (by omega)
      aligned (by rw [bootKernel_cr3]; omega) small fun _ leads => ?_
    have loaded : entryAt (bootKernel mem pageDirectory modules).mem
        pageDirectory (virtualAddr / 2 ^ 22) =
          bootDirectoryEntry pageDirectory (virtualAddr / 2 ^ 22) :=
      entryAt_loaderTables_dir mem aligned inRange (by omega)
    rw [bootKernel_cr3, loaded] at leads
    rw [LowAlias] at notLow
    rcases boot_windowTable_entries aligned inRange (by omega) leads with
      zero | windows
    · omega
    · by_contra high
      refine outside (1023 - virtualAddr / 2 ^ 12 % 2 ^ 10) ?_ ?_
      · rw [show tempMappingCount = 4 from rfl]
        omega
      · rw [show windowAddr (1023 - virtualAddr / 2 ^ 12 % 2 ^ 10) =
          0xC03FF000 - (1023 - virtualAddr / 2 ^ 12 % 2 ^ 10) * 4096 from rfl]
        simp only [pageSize]
        omega

end Boot

/-- The page at 0x3FF000 is no window, yet the first mapping moves it. -/
theorem not_translationKept_low :
    (∀ slot < tempMappingCount,
      0x3FF000 / pageSize ≠ windowAddr slot / pageSize) ∧
    ¬ TranslationKept (bootKernel (fun _ => 0) 0x110000 []) 0x3FF000 :=
  ⟨by decide, not_translationKept (by omega) (by omega) ⟨by omega, by omega⟩⟩

/-- The region of the page allocator keeps its identity mapping. -/
theorem translationKept_region :
    TranslationKept (bootKernel (fun _ => 0) 0x110000 []) 0x01000000 :=
  (translationKept_iff (by omega) (by omega) (by omega) (by decide)).mpr
    fun low => absurd low.2 (by omega)

end MatrixOS
