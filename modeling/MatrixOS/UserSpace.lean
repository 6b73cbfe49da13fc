import MatrixOS.BootMemory
import MatrixOS.ImageCopy

namespace MatrixOS

open ByteMemory Paging StateOption

/-!
# The address space of a process

What `vmm_create_user_space` and `vmm_load_user_program` leave in physical
memory, read the way the processor reads it.
-/

/-! ## Entries -/

section Entries

variable {mem : Memory} {dir table page : Nat}
variable {dirIndex tabIndex index : Nat}

/-- The directory after a page table has been entered. -/
theorem entryAt_mappedTable_dir
    (dirAligned : 2 ^ 12 ∣ dir)
    (tableAligned : 2 ^ 12 ∣ table)
    (tableInRange : table + 2 ^ 12 ≤ 2 ^ 32)
    (different : dir ≠ table)
    (tabBound : tabIndex < 1024)
    (bound : index < 1024) :
    entryAt (mappedTable mem dir dirIndex table tabIndex page) dir index =
      if index = dirIndex then table ||| 0x07 else entryAt mem dir index := by
  have apart := frames_apart dirAligned tableAligned different
  simp only [pageSize] at apart
  rw [mappedTable, entryAt,
    load_store_of_disjoint (by simp only [entryAddr]; omega),
    load_congr (agree_fill (by simp only [entryAddr, pageSize]; omega))]
  by_cases same : index = dirIndex
  · rw [if_pos same, same, load_store]
    exact or_flags_mod tableAligned tableInRange (by decide)
  · rw [if_neg same, load_store_of_disjoint (by simp only [entryAddr]; omega)]
    rfl

/-- A new page table has one entry. -/
theorem entryAt_mappedTable_table
    (pageAligned : 2 ^ 12 ∣ page)
    (pageInRange : page + 2 ^ 12 ≤ 2 ^ 32)
    (bound : index < 1024) :
    entryAt (mappedTable mem dir dirIndex table tabIndex page) table index =
      if index = tabIndex then page ||| 0x07 else 0 := by
  rw [mappedTable, entryAt]
  by_cases same : index = tabIndex
  · rw [if_pos same, same, load_store]
    exact or_flags_mod pageAligned pageInRange (by decide)
  · rw [if_neg same, load_store_of_disjoint (by simp only [entryAddr]; omega)]
    exact load_fill_zero (by simp only [entryAddr]; omega)
      (by simp only [entryAddr, pageSize]; omega)

/-- Entering a page table writes to the directory and to the table. -/
theorem mappedTable_outside
    (dirBound : dirIndex < 1024)
    (tabBound : tabIndex < 1024)
    {addr : Nat}
    (outsideDir : ¬ InRange dir pageSize addr)
    (outsideTable : ¬ InRange table pageSize addr) :
    mappedTable mem dir dirIndex table tabIndex page addr = mem addr := by
  rw [mappedTable, store_of_not_inRange, fill_of_not_inRange outsideTable,
    store_of_not_inRange]
  · simp only [InRange, entryAddr, pageSize] at outsideDir ⊢
    omega
  · simp only [InRange, entryAddr, pageSize] at outsideTable ⊢
    omega

end Entries

/-! ## The tables of a process -/

/-- The frames are pages, and the three tables are different ones. -/
structure ProgramFrames.Valid (frames : ProgramFrames) : Prop where
  dirAligned : 2 ^ 12 ∣ frames.dir
  aligned : ∀ frame ∈ frames.taken,
    2 ^ 12 ∣ frame ∧ frame + 2 ^ 12 ≤ 2 ^ 32
  codeTableApart : frames.dir ≠ frames.codeTable
  stackTableApart : frames.dir ≠ frames.stackTable
  tablesApart : frames.codeTable ≠ frames.stackTable

/--
The entries `vmm_load_user_program` makes; `others` are the entries that the
directory had before.
-/
structure SpaceEntries
    (mem : Memory) (frames : ProgramFrames) (others : Nat → Nat) : Prop where
  dir : ∀ index < 1024, entryAt mem frames.dir index =
    if index = 0x3FE then frames.stackTable ||| 0x07
    else if index = 0 then frames.codeTable ||| 0x07
    else others index
  codeTable : ∀ index < 1024, entryAt mem frames.codeTable index =
    if index = 0 then frames.code ||| 0x07 else 0
  stackTable : ∀ index < 1024, entryAt mem frames.stackTable index =
    if index = 0x3FF then frames.stack ||| 0x07 else 0

section Tables

variable {mem : Memory} {frames : ProgramFrames} {others : Nat → Nat}

theorem spaceEntries_mappedProgram
    (valid : frames.Valid) :
    SpaceEntries
      (mappedProgram mem frames) frames (entryAt mem frames.dir) := by
  obtain ⟨dirAligned, aligned, codeTableApart, stackTableApart,
    tablesApart⟩ := valid
  simp only [ProgramFrames.taken, List.forall_mem_cons, List.not_mem_nil,
    false_imp_iff, implies_true, and_true] at aligned
  obtain ⟨⟨codeAligned, codeInRange⟩, ⟨stackAligned, stackInRange⟩,
    ⟨codeTableAligned, codeTableInRange⟩,
    ⟨stackTableAligned, stackTableInRange⟩⟩ := aligned
  refine ⟨fun index bound => ?_, fun index bound => ?_, fun index bound => ?_⟩
  · rw [mappedProgram, entryAt_mappedTable_dir dirAligned stackTableAligned
        stackTableInRange stackTableApart (by omega) bound,
      entryAt_mappedTable_dir dirAligned codeTableAligned codeTableInRange
        codeTableApart (by omega) bound]
  · have apart := frames_apart codeTableAligned dirAligned codeTableApart.symm
    have tables := frames_apart codeTableAligned stackTableAligned tablesApart
    have kept : Agree (entryAddr frames.codeTable index) 4
        (mappedProgram mem frames)
        (mappedTable mem frames.dir 0 frames.codeTable 0 frames.code) := by
      intro addr inside
      apply mappedTable_outside (by omega) (by omega)
      · simp only [InRange, entryAddr, pageSize] at inside apart ⊢
        omega
      · simp only [InRange, entryAddr, pageSize] at inside tables ⊢
        omega
    exact (load_congr kept).trans
      (entryAt_mappedTable_table codeAligned codeInRange bound)
  · exact entryAt_mappedTable_table stackAligned stackInRange bound

/-- The entries depend on the three tables. -/
theorem SpaceEntries.congr
    {changed : Memory}
    (entries : SpaceEntries mem frames others)
    (kept : ∀ table ∈ [frames.dir, frames.codeTable, frames.stackTable],
      Agree table pageSize changed mem) :
    SpaceEntries changed frames others := by
  have same : ∀ table ∈ [frames.dir, frames.codeTable, frames.stackTable],
      ∀ index < 1024, entryAt changed table index = entryAt mem table index :=
    fun table member index bound =>
      load_congr (Windows.entry_agree bound (kept table member))
  refine ⟨fun index bound => ?_, fun index bound => ?_, fun index bound => ?_⟩
  · exact (same _ (by simp) index bound).trans (entries.dir index bound)
  · exact (same _ (by simp) index bound).trans (entries.codeTable index bound)
  · exact (same _ (by simp) index bound).trans
      (entries.stackTable index bound)

end Tables

/-! ## Walks -/

section Walks

variable {mem : Memory} {frames : ProgramFrames} {others : Nat → Nat}

/-- The first page of a process is its code page. -/
theorem SpaceEntries.translate_code
    (entries : SpaceEntries mem frames others)
    (valid : frames.Valid)
    {virtualAddr : Nat}
    (inPage : virtualAddr < pageSize) :
    translate mem frames.dir virtualAddr =
      some ⟨frames.code + virtualAddr, true, true⟩ := by
  simp only [pageSize] at inPage
  obtain ⟨tablePresent, tableWritable, tableUser, tableFrame⟩ :=
    userEntry (valid.aligned _ ProgramFrames.codeTable_taken).1
  obtain ⟨codePresent, codeWritable, codeUser, codeFrame⟩ :=
    userEntry (valid.aligned _ ProgramFrames.code_taken).1
  have dirIndex : virtualAddr / 2 ^ 22 = 0 := by omega
  have tabIndex : virtualAddr / 2 ^ 12 % 2 ^ 10 = 0 := by omega
  have offset : virtualAddr % 2 ^ 12 = virtualAddr := by omega
  have dirEntry : entryAt mem frames.dir (virtualAddr / 2 ^ 22) =
      frames.codeTable ||| 0x07 := by
    rw [dirIndex, entries.dir 0 (by omega)]
    rfl
  have tableEntry : entryAt mem (frameOf (frames.codeTable ||| 0x07))
      (virtualAddr / 2 ^ 12 % 2 ^ 10) = frames.code ||| 0x07 := by
    rw [tableFrame, tabIndex, entries.codeTable 0 (by omega)]
    rfl
  rw [walk_of_entries dirEntry tableEntry tablePresent codePresent, codeFrame,
    offset, tableWritable, codeWritable, tableUser, codeUser]
  rfl

/-- The page that the last entry of the other table maps is the stack page. -/
theorem SpaceEntries.translate_stack
    (entries : SpaceEntries mem frames others)
    (valid : frames.Valid)
    {virtualAddr : Nat}
    (inPage : virtualAddr / pageSize = 0x3FE * 1024 + 0x3FF) :
    translate mem frames.dir virtualAddr =
      some ⟨frames.stack + virtualAddr % pageSize, true, true⟩ := by
  simp only [pageSize] at inPage ⊢
  obtain ⟨tablePresent, tableWritable, tableUser, tableFrame⟩ :=
    userEntry (valid.aligned _ ProgramFrames.stackTable_taken).1
  obtain ⟨stackPresent, stackWritable, stackUser, stackFrame⟩ :=
    userEntry (valid.aligned frames.stack (by simp [ProgramFrames.taken])).1
  have dirIndex : virtualAddr / 2 ^ 22 = 0x3FE := by omega
  have tabIndex : virtualAddr / 2 ^ 12 % 2 ^ 10 = 0x3FF := by omega
  have dirEntry : entryAt mem frames.dir (virtualAddr / 2 ^ 22) =
      frames.stackTable ||| 0x07 := by
    rw [dirIndex, entries.dir 0x3FE (by omega)]
    rfl
  have tableEntry : entryAt mem (frameOf (frames.stackTable ||| 0x07))
      (virtualAddr / 2 ^ 12 % 2 ^ 10) = frames.stack ||| 0x07 := by
    rw [tableFrame, tabIndex, entries.stackTable 0x3FF (by omega)]
    rfl
  rw [walk_of_entries dirEntry tableEntry tablePresent stackPresent, stackFrame,
    tableWritable, stackWritable, tableUser, stackUser]
  rfl

/-- Nothing else is mapped by the table of the code page. -/
theorem SpaceEntries.translate_past_code
    (entries : SpaceEntries mem frames others)
    (valid : frames.Valid)
    {virtualAddr : Nat}
    (past : pageSize ≤ virtualAddr)
    (inTable : virtualAddr < 2 ^ 22) :
    translate mem frames.dir virtualAddr = none := by
  simp only [pageSize] at past
  have dirIndex : virtualAddr / 2 ^ 22 = 0 := by omega
  have tableFrame := (userEntry (valid.aligned _ ProgramFrames.codeTable_taken).1).2.2.2
  apply translate_of_table_not_present
  rw [dirIndex, entries.dir 0 (by omega), if_neg (by omega), if_pos rfl,
    tableFrame, entries.codeTable _ (by omega), if_neg (by omega)]
  rfl

/-- Directory entries that were clear and are not made map nothing. -/
theorem SpaceEntries.translate_clear
    (entries : SpaceEntries mem frames others)
    {virtualAddr : Nat}
    (past : 2 ^ 22 ≤ virtualAddr)
    (inSpace : virtualAddr < 0x3FE * 2 ^ 22)
    (clear : others (virtualAddr / 2 ^ 22) = 0) :
    translate mem frames.dir virtualAddr = none := by
  apply translate_of_not_present
  rw [entries.dir _ (by omega), if_neg (by omega), if_neg (by omega), clear]
  rfl

end Walks

/-! ## A successful creation -/

/-- What a successful `vmm_create_user_space` has done. -/
structure Created
    (before after : KernelState) (kernelDir windowTable dir : Nat) : Prop where
  allocated : Allocated before.buddySys dir after.buddySys
  entries : ∀ index < 1024, entryAt after.mem dir index =
    if 768 ≤ index then entryAt before.mem kernelDir index else 0
  ready : MemoryReady after kernelDir windowTable
  memoryOnly :
    after = (before.withBuddySys after.buddySys).withMapping after.mem
      after.tempMgr
  keeps : ∀ frame, 2 ^ 12 ∣ frame → frame ≠ windowTable → frame ≠ dir →
    Agree frame pageSize after.mem before.mem

section Create

variable {state : KernelState} {kernelDir windowTable : Nat}

theorem createdSpace_agree
    {mem : Memory} {dir frame : Nat}
    (dirAligned : 2 ^ 12 ∣ dir)
    (aligned : 2 ^ 12 ∣ frame)
    (different : frame ≠ dir) :
    Agree frame pageSize (createdSpace mem dir kernelDir) mem := by
  have apart := frames_apart aligned dirAligned different
  intro addr inside
  have outside : ¬ InRange dir pageSize addr := by
    simp only [InRange] at inside ⊢
    omega
  rw [createdSpace, copiedEntries_outside (by decide) outside,
    fill_of_not_inRange outside]

/-- The same where the windows have changed since. -/
theorem SameOffWindows.createdSpace_agree
    {before after : Memory} {dir frame : Nat}
    (same : SameOffWindows windowTable after (createdSpace before dir kernelDir))
    (tableAligned : 2 ^ 12 ∣ windowTable)
    (dirAligned : 2 ^ 12 ∣ dir)
    (aligned : 2 ^ 12 ∣ frame)
    (notWindows : frame ≠ windowTable)
    (different : frame ≠ dir) :
    Agree frame pageSize after before :=
  (SameOffWindows.agree tableAligned aligned notWindows same).trans
    (MatrixOS.createdSpace_agree dirAligned aligned different)

/-- `vmm_create_user_space` returns 0, or the directory it has built. -/
theorem vmmCreateUserSpace_cases
    (ready : MemoryReady state kernelDir windowTable) :
    ∃ dir next, vmmCreateUserSpace state = some (dir, next) ∧
      ((dir = 0 ∧ next = state ∧ state.buddySys.freePages = ∅) ∨
        Created state next kernelDir windowTable dir) := by
  rcases run : Pmm.pmmAllocPages state.buddySys 0 with ⟨dir, buddySys⟩
  by_cases failed : dir = 0
  · subst failed
    have none := ready.allocator.freePages_of_refused run
    refine ⟨0, state, ?_, Or.inl ⟨rfl, rfl, none⟩⟩
    obtain ⟨live, pool, invariant⟩ := ready.allocator
    have unchanged : buddySys = state.buddySys := by
      rcases invariant.pmmAllocPages_cases 0 with ⟨same, _⟩ | ⟨found, _⟩
      · exact congrArg Prod.snd (run.symm.trans same)
      · rw [run] at found
        exact absurd rfl found
    rw [vmmCreateUserSpace, bind_of_eq (pmmAllocPages_eq run), if_pos rfl,
      unchanged]
    rfl
  · obtain ⟨allocated, _⟩ := ready.allocator.allocated run failed
    obtain ⟨mem, mgr, done, windows, same⟩ :=
      vmmCreateUserSpace_eq ready allocated
    have clear := ready.clear allocated
    have later := ready.allocate allocated
    refine ⟨dir, _, done, Or.inr ⟨allocated, ?_, ?_, rfl, ?_⟩⟩
    · intro index bound
      have kernelEntry : entryAt (fill state.mem dir pageSize 0) kernelDir index =
          entryAt state.mem kernelDir index := by
        have apart := frames_apart windows.kernelDir_aligned clear.aligned
          clear.kernelDir.symm
        refine load_congr (agree_fill ?_)
        simp only [entryAddr, pageSize] at apart ⊢
        omega
      have clearEntry : entryAt (fill state.mem dir pageSize 0) dir index = 0 :=
        load_fill_zero (by simp only [entryAddr]; omega)
          (by simp only [entryAddr, pageSize]; omega)
      have written :=
        SameOffWindows.entryAt_eq windows.windowTable_aligned clear.aligned
          clear.windowTable same bound
      rw [KernelState.withMapping_mem, written, createdSpace,
        entryAt_copiedEntries clear.aligned windows.kernelDir_aligned
          clear.kernelDir.symm (by decide) bound,
        kernelEntry, clearEntry]
      exact if_congr (by omega) rfl rfl
    · exact ⟨windows, later.allocator, later.dirHeld, later.kernelDirHeld,
        later.windowTableHeld⟩
    · intro frame aligned notWindows notDir
      exact same.createdSpace_agree windows.windowTable_aligned clear.aligned
        aligned notWindows notDir

/-- The result of a call that returned. -/
theorem vmmCreateUserSpace_created
    (ready : MemoryReady state kernelDir windowTable)
    {dir : Nat} {next : KernelState}
    (created : vmmCreateUserSpace state = some (dir, next))
    (nonzero : dir ≠ 0) :
    Created state next kernelDir windowTable dir := by
  obtain ⟨other, otherNext, run, result⟩ := vmmCreateUserSpace_cases ready
  obtain ⟨rfl, rfl⟩ := Prod.mk.inj (Option.some.inj (run.symm.trans created))
  rcases result with ⟨zero, _⟩ | done
  · exact absurd zero nonzero
  · exact done

end Create

/-! ## A successful load -/

/-- The tables of a process. -/
def ProgramFrames.tables (frames : ProgramFrames) : List Nat :=
  [frames.dir, frames.codeTable, frames.stackTable]

/--
What a successful `vmm_load_user_program` has done.  The frames `kept` are
other frames in use.
-/
structure Loaded
    (before after : KernelState) (kernelDir windowTable start size : Nat)
    (kept : List Nat) (frames : ProgramFrames) : Prop where
  valid : frames.Valid
  codeApart : frames.code ∉ frames.tables
  allocated : ∃ afterCode afterStack afterTable,
    LoadFrames before.buddySys frames afterCode afterStack afterTable
      after.buddySys
  entries : SpaceEntries after.mem frames (entryAt before.mem frames.dir)
  copied : size ≤ pageSize →
    SameOffWindows windowTable after.mem
      (transfer (mappedProgram before.mem frames) frames.code start size)
  windows : Windows after kernelDir windowTable fun _ => none
  memoryOnly :
    after = (before.withBuddySys after.buddySys).withMapping after.mem
      after.tempMgr
  keeps : ∀ frame ∈ kept, frame ≠ windowTable → frame ≠ frames.dir →
    Agree frame pageSize after.mem before.mem
  keepsBehind : 2 * pageSize < size →
    ∀ table, PointsTo before.mem before.cr3 769 table →
      Agree table pageSize after.mem before.mem

section Load

variable {state : KernelState} {frames : ProgramFrames}
variable {kernelDir windowTable start size : Nat}

/-- A page frame that is no table of the process keeps its contents. -/
theorem mappedProgram_agree
    {mem : Memory} {frame : Nat}
    (valid : frames.Valid)
    (aligned : 2 ^ 12 ∣ frame)
    (apart : frame ∉ frames.tables) :
    Agree frame pageSize (mappedProgram mem frames) mem := by
  simp only [ProgramFrames.tables, List.mem_cons, List.not_mem_nil, or_false,
    not_or] at apart
  obtain ⟨notDir, notCodeTable, notStackTable⟩ := apart
  have outside : ∀ {table}, 2 ^ 12 ∣ table → frame ≠ table →
      ∀ addr, InRange frame pageSize addr → ¬ InRange table pageSize addr := by
    intro table tableAligned different addr inside
    have pages := frames_apart aligned tableAligned different
    simp only [InRange] at inside ⊢
    omega
  have notInDir := outside valid.dirAligned notDir
  have notInCode := outside
    (valid.aligned _ ProgramFrames.codeTable_taken).1 notCodeTable
  have notInStack := outside
    (valid.aligned _ ProgramFrames.stackTable_taken).1 notStackTable
  intro addr inside
  rw [mappedProgram,
    mappedTable_outside (by omega) (by omega) (notInDir addr inside)
      (notInStack addr inside),
    mappedTable_outside (by omega) (by omega) (notInDir addr inside)
      (notInCode addr inside)]

/-- The same where the windows have changed since. -/
theorem SameOffWindows.mappedProgram_agree
    {before after : Memory} {frame : Nat}
    (same : SameOffWindows windowTable after (mappedProgram before frames))
    (tableAligned : 2 ^ 12 ∣ windowTable)
    (valid : frames.Valid)
    (aligned : 2 ^ 12 ∣ frame)
    (notWindows : frame ≠ windowTable)
    (apart : frame ∉ frames.tables) :
    Agree frame pageSize after before :=
  (SameOffWindows.agree tableAligned aligned notWindows same).trans
    (MatrixOS.mappedProgram_agree valid aligned apart)

theorem ProgramFrames.Valid.tables_aligned (valid : frames.Valid) :
    ∀ table ∈ frames.tables, 2 ^ 12 ∣ table := by
  simp only [ProgramFrames.tables, List.forall_mem_cons, List.not_mem_nil,
    false_imp_iff, implies_true, and_true]
  exact ⟨valid.dirAligned,
    (valid.aligned _ ProgramFrames.codeTable_taken).1,
    (valid.aligned _ ProgramFrames.stackTable_taken).1⟩

theorem LoadFrames.valid
    {before afterCode afterStack afterTable after : Pmm.BuddySystem}
    (allocated : LoadFrames before frames afterCode afterStack afterTable after)
    (dirAligned : 2 ^ 12 ∣ frames.dir)
    (dirHeld : Held before frames.dir) :
    frames.Valid where
  dirAligned := dirAligned
  aligned := allocated.aligned
  codeTableApart :=
    allocated.ne_of_held dirHeld _ ProgramFrames.codeTable_taken
  stackTableApart :=
    allocated.ne_of_held dirHeld _ ProgramFrames.stackTable_taken
  tablesApart := allocated.apart.2.2

/-- The tables of a process are no other frames in use. -/
theorem LoadFrames.not_mem_tables
    {before afterCode afterStack afterTable after : Pmm.BuddySystem}
    (allocated : LoadFrames before frames afterCode afterStack afterTable after)
    {frame : Nat}
    (held : Held before frame)
    (notDir : frame ≠ frames.dir) :
    frame ∉ frames.tables := by
  have apart := allocated.ne_of_held held
  simp [ProgramFrames.tables, notDir,
    apart _ ProgramFrames.codeTable_taken,
    apart _ ProgramFrames.stackTable_taken]

theorem LoadFrames.code_not_mem_tables
    {before afterCode afterStack afterTable after : Pmm.BuddySystem}
    (allocated : LoadFrames before frames afterCode afterStack afterTable after)
    (dirHeld : Held before frames.dir) :
    frames.code ∉ frames.tables := by
  have notDir := allocated.ne_of_held dirHeld _ ProgramFrames.code_taken
  simp [ProgramFrames.tables, allocated.apart.1, allocated.apart.2.1,
    notDir.symm]

/-- Frames in use keep their contents while the tables are filled in. -/
theorem LoadFrames.mappedProgram_agree
    {before afterCode afterStack afterTable after : Pmm.BuddySystem}
    (allocated : LoadFrames before frames afterCode afterStack afterTable after)
    (valid : frames.Valid)
    {mem mapped : Memory}
    (tableAligned : 2 ^ 12 ∣ windowTable)
    (same : SameOffWindows windowTable mapped (mappedProgram mem frames))
    {frame : Nat}
    (aligned : 2 ^ 12 ∣ frame)
    (notWindows : frame ≠ windowTable)
    (held : Held before frame)
    (notDir : frame ≠ frames.dir) :
    Agree frame pageSize mapped mem :=
  same.mappedProgram_agree tableAligned valid aligned notWindows
    (allocated.not_mem_tables held notDir)

/-- The copy of the image keeps the tables of the process and other frames. -/
theorem LoadFrames.copyUserProgram_keeps
    {kept : List Nat}
    {afterCode afterStack afterTable after : Pmm.BuddySystem}
    (allocated : LoadFrames state.buddySys frames
      afterCode afterStack afterTable after)
    (ready : MemoryReady state kernelDir windowTable)
    (dirReserved : Reserved state kernelDir windowTable frames.dir)
    (startReserved : Reserved state kernelDir windowTable start)
    (different : start ≠ frames.dir)
    (keptHeld : ∀ frame ∈ kept,
      2 ^ 12 ∣ frame ∧ Held state.buddySys frame ∧ frame ≠ start)
    (behind : 2 * pageSize < size →
      BehindWindows state.mem state.cr3 fun frame =>
        Reserved state kernelDir windowTable frame ∧
          frame ≠ start ∧ frame ≠ frames.dir ∧ frame ∉ kept)
    {mem : Memory} {mgr : TempMappingManager}
    (windows : Windows ((state.withBuddySys after).withMapping mem mgr)
      kernelDir windowTable fun _ => none)
    (same : SameOffWindows windowTable mem (mappedProgram state.mem frames)) :
    Ensures (copyUserProgram start frames.code size)
      ((state.withBuddySys after).withMapping mem mgr) fun _ next =>
      ∃ copiedMem copiedMgr,
        next = ((state.withBuddySys after).withMapping mem mgr).withMapping
          copiedMem copiedMgr ∧
        Windows next kernelDir windowTable (fun _ => none) ∧
        (∀ frame ∈ frames.tables ++ kept, frame ≠ windowTable →
          Agree frame pageSize copiedMem mem) ∧
        (2 * pageSize < size → ∀ table, PointsTo mem state.cr3 769 table →
          Agree table pageSize copiedMem mem) := by
  have valid := allocated.valid dirReserved.aligned dirReserved.held
  have codeApart := allocated.code_not_mem_tables dirReserved.held
  have codeTaken := allocated.aligned _ ProgramFrames.code_taken
  have codeClear : Windows.Clear state.cr3 kernelDir windowTable frames.code :=
    ready.clear_of_free codeTaken.1
      (allocated.wasFree _ ProgramFrames.code_taken)
  have tableAligned := windows.windowTable_aligned
  have dirSame := allocated.mappedProgram_agree valid tableAligned same
    windows.dirAligned ready.windows.tableApart.1.symm ready.dirHeld
    dirReserved.dir.symm
  refine windows.copyUserProgram_keeps startReserved.toClear
    startReserved.inRange codeClear codeTaken.2 ?_ ?_ ?_ ?_
  · exact List.forall_mem_append.mpr
      ⟨valid.tables_aligned, fun frame member => (keptHeld frame member).1⟩
  · intro member
    rcases List.mem_append.mp member with isTable | isKept
    · exact allocated.not_mem_tables startReserved.held different isTable
    · exact (keptHeld start isKept).2.2 rfl
  · intro member
    rcases List.mem_append.mp member with isTable | isKept
    · exact codeApart isTable
    · exact allocated.ne_of_held (keptHeld _ isKept).2.1 _
        ProgramFrames.code_taken rfl
  · intro long
    refine (behind long).congr
      dirSame
      (fun table apart aligned => allocated.mappedProgram_agree valid
        tableAligned same aligned apart.1.windowTable apart.1.held
        apart.2.2.1) ?_
    rintro frame ⟨reserved, notStart, notDir, notKept⟩
    refine ⟨reserved.toClear, notStart,
      allocated.ne_of_held reserved.held _ ProgramFrames.code_taken, ?_⟩
    rw [List.mem_append, not_or]
    exact ⟨allocated.not_mem_tables reserved.held notDir, notKept⟩

/-- Everything a successful call has done. -/
theorem vmmLoadUserProgram_loaded
    {pageDir : Nat}
    (kept : List Nat)
    (ready : MemoryReady state kernelDir windowTable)
    (dirReserved : Reserved state kernelDir windowTable pageDir)
    (startReserved : Reserved state kernelDir windowTable start)
    (different : start ≠ pageDir)
    (keptHeld : ∀ frame ∈ kept,
      2 ^ 12 ∣ frame ∧ Held state.buddySys frame ∧ frame ≠ start)
    (behind : 2 * pageSize < size →
      BehindWindows state.mem state.cr3 fun frame =>
        Reserved state kernelDir windowTable frame ∧
          frame ≠ start ∧ frame ≠ pageDir ∧ frame ∉ kept)
    {next : KernelState}
    (loaded : vmmLoadUserProgram pageDir start size state = some (1, next)) :
    ∃ frames, frames.dir = pageDir ∧
      Loaded state next kernelDir windowTable start size kept frames := by
  obtain ⟨frames, _, _, _, after, rfl, allocated⟩ :=
    vmmLoadUserProgram_frames ready dirReserved loaded
  obtain ⟨mem, mgr, run, windows, same⟩ :=
    vmmLoadUserProgram_eq ready dirReserved allocated start size
  have valid := allocated.valid dirReserved.aligned dirReserved.held
  have codeApart := allocated.code_not_mem_tables dirReserved.held
  have codeTaken := allocated.aligned _ ProgramFrames.code_taken
  have codeClear : Windows.Clear state.cr3 kernelDir windowTable frames.code :=
    ready.clear_of_free codeTaken.1
      (allocated.wasFree _ ProgramFrames.code_taken)
  have mapped : ∀ frame, 2 ^ 12 ∣ frame → frame ≠ windowTable →
      Held state.buddySys frame → frame ≠ frames.dir →
      Agree frame pageSize mem state.mem :=
    fun _ => allocated.mappedProgram_agree valid windows.windowTable_aligned same
  have dirSame := mapped _ windows.dirAligned ready.windows.tableApart.1.symm
    ready.dirHeld dirReserved.dir.symm
  have copyKeeps := allocated.copyUserProgram_keeps ready dirReserved
    startReserved different keptHeld behind windows same
  rw [run] at loaded
  obtain ⟨_, copied, copyRun, returned⟩ := bind_eq_some.mp loaded
  obtain ⟨_, rfl⟩ := Prod.mk.inj (Option.some.inj returned)
  obtain ⟨copiedMem, copiedMgr, rfl, lastWindows, keeps, keepsTable⟩ :=
    copyKeeps _ _ copyRun
  have notWindows : ∀ table ∈ frames.tables, table ≠ windowTable := by
    rintro table member rfl
    exact allocated.not_mem_tables ready.windowTableHeld
      dirReserved.windowTable.symm member
  refine ⟨frames, rfl, valid, codeApart, ⟨_, _, _, allocated⟩, ?_, ?_,
    lastWindows, rfl, ?_, ?_⟩
  · refine (spaceEntries_mappedProgram valid).congr fun table member => ?_
    exact (keeps table (List.mem_append_left _ member)
      (notWindows table member)).trans
        (SameOffWindows.agree windows.windowTable_aligned
          (valid.tables_aligned table member) (notWindows table member) same)
  · intro inPage
    obtain ⟨exactMem, exactMgr, exactRun, _, exactSame⟩ :=
      windows.copyUserProgram startReserved.toClear startReserved.inRange
        codeClear codeTaken.2
        (allocated.ne_of_held startReserved.held _ ProgramFrames.code_taken)
        inPage
    have final := congrArg Prod.snd (Option.some.inj (copyRun.symm.trans exactRun))
    have finalMem : copiedMem = exactMem := congrArg KernelState.mem final
    subst finalMem
    exact exactSame.trans (SameOffWindows.transfer windows.windowTable_aligned
      startReserved.aligned startReserved.windowTable same _ inPage)
  · intro frame member frameNotWindows notDir
    have held := keptHeld frame member
    exact (keeps frame (List.mem_append_right _ member) frameNotWindows).trans
      (mapped frame held.1 frameNotWindows held.2.1 notDir)
  · intro long table points
    obtain ⟨tableReserved, _, notDir, _⟩ := (behind long).table_apart points
    refine (keepsTable long table
      (points.congr (Windows.entry_agree (by omega) dirSame))).trans ?_
    exact mapped table points.frame_lt.2 tableReserved.windowTable
      tableReserved.held notDir

/-- With four free pages an image of at most a page is loaded. -/
theorem vmmLoadUserProgram_returns
    {afterCode afterStack afterTable after : Pmm.BuddySystem}
    (ready : MemoryReady state kernelDir windowTable)
    (dirReserved : Reserved state kernelDir windowTable frames.dir)
    (startReserved : Reserved state kernelDir windowTable start)
    (allocated : LoadFrames state.buddySys frames
      afterCode afterStack afterTable after)
    (inPage : size ≤ pageSize) :
    Returns (vmmLoadUserProgram frames.dir start size) state
      fun value next => value = 1 ∧ next.buddySys = after := by
  obtain ⟨mem, mgr, same, windows, _⟩ :=
    vmmLoadUserProgram_eq ready dirReserved allocated start size
  have codeTaken := allocated.aligned _ ProgramFrames.code_taken
  have codeFree := allocated.wasFree _ ProgramFrames.code_taken
  obtain ⟨_, _, copied, _⟩ := windows.copyUserProgram startReserved.toClear
    startReserved.inRange (ready.clear_of_free codeTaken.1 codeFree)
    codeTaken.2
    (allocated.ne_of_held startReserved.held _ ProgramFrames.code_taken) inPage
  refine ⟨1, _, same.trans ((bind_of_eq copied).trans rfl), rfl, rfl⟩

/-- An image of one byte more than a page is loaded, too. -/
theorem vmmLoadUserProgram_overrun
    {table page : Nat}
    {afterCode afterStack afterTable after : Pmm.BuddySystem}
    (ready : MemoryReady state kernelDir windowTable)
    (dirReserved : Reserved state kernelDir windowTable frames.dir)
    (startReserved : Reserved state kernelDir windowTable start)
    (allocated : LoadFrames state.buddySys frames
      afterCode afterStack afterTable after)
    (behindTable : PointsTo state.mem state.cr3 769 table)
    (behindPage : PointsTo state.mem table 0 page)
    (tableReserved : Reserved state kernelDir windowTable table)
    (different : table ≠ frames.dir) :
    Returns (vmmLoadUserProgram frames.dir start (pageSize + 1)) state
      fun value _ => value = 1 := by
  obtain ⟨mem, mgr, same, windows, mapped⟩ :=
    vmmLoadUserProgram_eq ready dirReserved allocated start (pageSize + 1)
  have codeTaken := allocated.aligned _ ProgramFrames.code_taken
  have codeClear := ready.clear_of_free codeTaken.1
    (allocated.wasFree _ ProgramFrames.code_taken)
  have valid := allocated.valid dirReserved.aligned dirReserved.held
  have kept : ∀ frame, 2 ^ 12 ∣ frame → frame ≠ windowTable →
      Held state.buddySys frame → frame ≠ frames.dir →
      Agree frame pageSize mem state.mem :=
    fun frame aligned notWindows held notDir =>
      mapped.mappedProgram_agree windows.windowTable_aligned valid aligned
        notWindows (allocated.not_mem_tables held notDir)
  have dirEntry := behindTable.congr (Windows.entry_agree (by omega)
    (kept _ windows.dirAligned windows.tableApart.1.symm ready.dirHeld
      dirReserved.dir.symm))
  have tableEntry := behindPage.congr (Windows.entry_agree (by omega)
    (kept _ tableReserved.aligned tableReserved.windowTable
      tableReserved.held different))
  obtain ⟨_, next, copied, _⟩ := windows.copyUserProgram_overrun
    startReserved.toClear startReserved.inRange codeClear codeTaken.2
    (allocated.ne_of_held startReserved.held _ ProgramFrames.code_taken)
    dirEntry tableEntry ⟨tableReserved.windowTable,
      allocated.ne_of_held tableReserved.held _ ProgramFrames.code_taken⟩
  exact ⟨1, next, same.trans ((bind_of_eq copied).trans rfl), rfl⟩

/-- Four free pages are enough for the frames of a program. -/
theorem FreeAtLeast.loadFrames
    {sys : Pmm.BuddySystem} {count : Nat}
    (free : FreeAtLeast sys (count + 4))
    (ready : AllocatorReady sys)
    (pageDir : Nat) :
    ∃ frames afterCode afterStack afterTable after, frames.dir = pageDir ∧
      LoadFrames sys frames afterCode afterStack afterTable after ∧
      AllocatorReady after ∧ FreeAtLeast after count := by
  obtain ⟨code, afterCode, codeTaken, readyCode, freeCode⟩ := free.take ready
  obtain ⟨stack, afterStack, stackTaken, readyStack, freeStack⟩ :=
    freeCode.take readyCode
  obtain ⟨codeTable, afterTable, tableTaken, readyTable, freeTable⟩ :=
    freeStack.take readyStack
  obtain ⟨stackTable, after, lastTaken, readyLast, freeLast⟩ :=
    freeTable.take readyTable
  exact ⟨⟨pageDir, code, stack, codeTable, stackTable⟩, afterCode, afterStack,
    afterTable, after, rfl, ⟨codeTaken, stackTaken, tableTaken, lastTaken⟩,
    readyLast, freeLast⟩

end Load

/-! ## The address space and the image of a process -/

/--
The address space the comments of `vmm.c` and the stack pointer of a process
ask for: the code page at 0, the stack page at 0xBFFFF000, nothing else below
the kernel's half.
-/
structure UserSpaceBuilt
    (mem : Memory) (dir kernelDir code stack : Nat) : Prop where
  codePage : ∀ virtualAddr < pageSize,
    translate mem dir virtualAddr = some ⟨code + virtualAddr, true, true⟩
  stackPage : ∀ offset < pageSize,
    translate mem dir (0xBFFFF000 + offset) = some ⟨stack + offset, true, true⟩
  unmapped : ∀ virtualAddr, pageSize ≤ virtualAddr →
    virtualAddr < 0xBFFFF000 → translate mem dir virtualAddr = none
  kernelHalf : ∀ index, 768 ≤ index → index < 1024 →
    entryAt mem dir index = entryAt mem kernelDir index

section Results

variable {state middle next : KernelState}
variable {kernelDir windowTable start size : Nat}

/-- What was in use stays in use after a creation. -/
theorem Created.reserved
    {dir frame : Nat}
    (created : Created state middle kernelDir windowTable dir)
    (reserved : Reserved state kernelDir windowTable frame) :
    Reserved middle kernelDir windowTable frame ∧ frame ≠ dir := by
  have sameDir : middle.cr3 = state.cr3 := by
    rw [created.memoryOnly]
    rfl
  refine ⟨⟨?_, reserved.inRange, created.allocated.keeps reserved.held⟩,
    (created.allocated.ne_of_held reserved.held).symm⟩
  rw [sameDir]
  exact reserved.toClear

/-- The frames behind the windows stay apart from a new directory. -/
theorem Created.behind
    {dir : Nat}
    (kept : List Nat)
    (ready : MemoryReady state kernelDir windowTable)
    (created : Created state middle kernelDir windowTable dir)
    (behind : BehindWindows state.mem state.cr3 fun frame =>
      Reserved state kernelDir windowTable frame ∧ frame ≠ start ∧
        frame ∉ kept) :
    BehindWindows middle.mem middle.cr3 fun frame =>
      Reserved middle kernelDir windowTable frame ∧
        frame ≠ start ∧ frame ≠ dir ∧ frame ∉ kept := by
  have sameDir : middle.cr3 = state.cr3 := by
    rw [created.memoryOnly]
    rfl
  rw [sameDir]
  refine behind.congr ?_ ?_ ?_
  · exact created.keeps _ ready.windows.dirAligned
      ready.windows.tableApart.1.symm
      (created.allocated.ne_of_held ready.dirHeld).symm
  · rintro table ⟨reserved, _⟩ aligned
    exact created.keeps table aligned reserved.windowTable
      (created.reserved reserved).2
  · rintro frame ⟨reserved, notStart, notKept⟩
    obtain ⟨stillReserved, notDir⟩ := created.reserved reserved
    exact ⟨stillReserved, notStart, notDir, notKept⟩

/-- The new directory is in use after its creation. -/
theorem Created.dirReserved
    {dir : Nat}
    (ready : MemoryReady state kernelDir windowTable)
    (created : Created state middle kernelDir windowTable dir) :
    Reserved middle kernelDir windowTable dir := by
  have sameDir : middle.cr3 = state.cr3 := by
    rw [created.memoryOnly]
    rfl
  refine ⟨?_, created.allocated.inRange, created.allocated.held⟩
  rw [sameDir]
  exact ready.clear created.allocated

/-- An image of at most a page is loaded into a new address space. -/
theorem userSpace_returns
    (ready : MemoryReady state kernelDir windowTable)
    (reserved : Reserved state kernelDir windowTable start)
    (inPage : size ≤ pageSize)
    {count : Nat}
    (free : FreeAtLeast state.buddySys (count + 5)) :
    ∃ dir middle next, dir ≠ 0 ∧ vmmCreateUserSpace state = some (dir, middle) ∧
      vmmLoadUserProgram dir start size middle = some (1, next) ∧
      FreeAtLeast next.buddySys count := by
  obtain ⟨dir, created, dirTaken, _, dirFree⟩ := free.take ready.allocator
  obtain ⟨mem, mgr, createdRun, _, _⟩ := vmmCreateUserSpace_eq ready dirTaken
  have built := vmmCreateUserSpace_created ready createdRun dirTaken.nonzero
  generalize middleIs :
    (state.withBuddySys created).withMapping mem mgr = middle
    at createdRun built
  have middleSys : middle.buddySys = created := by
    rw [← middleIs]
    rfl
  rw [← middleSys] at dirFree
  obtain ⟨frames, _, _, _, _, rfl, allocated, _, loadedFree⟩ :=
    dirFree.loadFrames built.ready.allocator dir
  obtain ⟨_, next, loadedRun, rfl, loadedIs⟩ :=
    vmmLoadUserProgram_returns built.ready (built.dirReserved ready)
      (built.reserved reserved).1 allocated inPage
  rw [← loadedIs] at loadedFree
  exact ⟨_, middle, next, dirTaken.nonzero, createdRun, loadedRun, loadedFree⟩

/-- What the two calls have done then. -/
theorem userSpace_loaded
    (ready : MemoryReady state kernelDir windowTable)
    (reserved : Reserved state kernelDir windowTable start)
    (inPage : size ≤ pageSize)
    {count : Nat}
    (free : FreeAtLeast state.buddySys (count + 5)) :
    ∃ frames middle next,
      vmmCreateUserSpace state = some (frames.dir, middle) ∧
      vmmLoadUserProgram frames.dir start size middle = some (1, next) ∧
      Created state middle kernelDir windowTable frames.dir ∧
      Loaded middle next kernelDir windowTable start size [] frames ∧
      FreeAtLeast next.buddySys count := by
  obtain ⟨dir, middle, next, nonzero, createdRun, loadedRun, left⟩ :=
    userSpace_returns ready reserved inPage free
  have created := vmmCreateUserSpace_created ready createdRun nonzero
  obtain ⟨stillReserved, notDir⟩ := created.reserved reserved
  obtain ⟨frames, rfl, loaded⟩ := vmmLoadUserProgram_loaded [] created.ready
    (created.dirReserved ready) stillReserved notDir (by simp)
    (fun long => absurd long (by omega)) loadedRun
  exact ⟨frames, middle, next, createdRun, loadedRun, created, loaded, left⟩

/-- The directory entry of 0xBFFFF000 stays empty. -/
theorem stackPage_missing
    (ready : MemoryReady state kernelDir windowTable)
    (startReserved : Reserved state kernelDir windowTable start)
    (behind : 2 * pageSize < size →
      BehindWindows state.mem state.cr3 fun frame =>
        Reserved state kernelDir windowTable frame ∧ frame ≠ start)
    {dir : Nat}
    (nonzero : dir ≠ 0)
    (created : vmmCreateUserSpace state = some (dir, middle))
    (loaded : vmmLoadUserProgram dir start size middle = some (1, next)) :
    translate next.mem dir 0xBFFFF000 = none := by
  have space := vmmCreateUserSpace_created ready created nonzero
  obtain ⟨stillReserved, notDir⟩ := space.reserved startReserved
  have stillBehind : 2 * pageSize < size →
      BehindWindows middle.mem middle.cr3 fun frame =>
        Reserved middle kernelDir windowTable frame ∧
          frame ≠ start ∧ frame ≠ dir ∧ frame ∉ ([] : List Nat) :=
    fun long => space.behind [] ready (by simpa using behind long)
  obtain ⟨frames, rfl, result⟩ := vmmLoadUserProgram_loaded [] space.ready
    (space.dirReserved ready) stillReserved notDir (by simp) stillBehind loaded
  refine result.entries.translate_clear (by omega) (by omega) ?_
  rw [space.entries _ (by omega), if_neg (by omega)]

theorem not_userSpaceBuilt
    {mem : Memory} {dir : Nat}
    (missing : translate mem dir 0xBFFFF000 = none)
    (code stack : Nat) :
    ¬ UserSpaceBuilt mem dir kernelDir code stack := by
  intro built
  have stackPage := built.stackPage 0 (by decide)
  rw [missing] at stackPage
  cases stackPage

/--
No created and loaded address space is the one asked for: the directory entry
of 0xBFFFF000 stays empty, and entry 1022 is not the kernel's.
-/
theorem userSpace_never_built
    (ready : MemoryReady state kernelDir windowTable)
    (startReserved : Reserved state kernelDir windowTable start)
    (behind : 2 * pageSize < size →
      BehindWindows state.mem state.cr3 fun frame =>
        Reserved state kernelDir windowTable frame ∧ frame ≠ start)
    {dir : Nat}
    (nonzero : dir ≠ 0)
    (created : vmmCreateUserSpace state = some (dir, middle))
    (loaded : vmmLoadUserProgram dir start size middle = some (1, next)) :
    ∀ code stack, ¬ UserSpaceBuilt next.mem dir kernelDir code stack :=
  not_userSpaceBuilt
    (stackPage_missing ready startReserved behind nonzero created loaded)

/-- A program of 16 bytes is loaded after boot. -/
theorem userSpace_returns_boot :
    ∃ dir middle next, dir ≠ 0 ∧
      vmmCreateUserSpace (bootKernel (fun _ => 0) 0x110000 []) =
        some (dir, middle) ∧
      vmmLoadUserProgram dir 0x200000 16 middle = some (1, next) := by
  have reserved := bootReserved [] 0x200000 (by omega) (by omega) (by omega)
  have enough : FreeAtLeast (bootKernel (fun _ => 0) 0x110000 []).buddySys
      (4091 + 5) :=
    bootFree []
  obtain ⟨dir, middle, next, nonzero, created, loaded, _⟩ :=
    userSpace_returns (bootReady []) reserved (show 16 ≤ pageSize by decide)
      enough
  exact ⟨dir, middle, next, nonzero, created, loaded⟩

theorem userSpace_never_built_boot :
    ∃ dir middle next,
      vmmCreateUserSpace (bootKernel (fun _ => 0) 0x110000 []) =
        some (dir, middle) ∧
      vmmLoadUserProgram dir 0x200000 16 middle = some (1, next) ∧
      ∀ code stack, ¬ UserSpaceBuilt next.mem dir 0x110000 code stack := by
  have reserved := bootReserved [] 0x200000 (by omega) (by omega) (by omega)
  obtain ⟨dir, middle, next, nonzero, created, loaded⟩ := userSpace_returns_boot
  exact ⟨dir, middle, next, created, loaded,
    userSpace_never_built (bootReady []) reserved
      (fun long => absurd long (by decide)) nonzero created loaded⟩

/-- The stack pointer of a process leads nowhere. -/
theorem userStack_not_mapped :
    ∃ dir middle next,
      vmmCreateUserSpace (bootKernel (fun _ => 0) 0x110000 []) =
        some (dir, middle) ∧
      vmmLoadUserProgram dir 0x200000 16 middle = some (1, next) ∧
      translate next.mem dir 0xBFFFF000 = none ∧
      ¬ ∃ code stack, UserSpaceBuilt next.mem dir 0x110000 code stack := by
  have reserved := bootReserved [] 0x200000 (by omega) (by omega) (by omega)
  obtain ⟨dir, middle, next, nonzero, created, loaded⟩ := userSpace_returns_boot
  have missing := stackPage_missing (bootReady []) reserved
    (fun long => absurd long (by decide)) nonzero created loaded
  exact ⟨dir, middle, next, created, loaded, missing,
    fun ⟨code, stack, built⟩ => not_userSpaceBuilt missing code stack built⟩

/-! ## The image -/

/--
The image is at the addresses of the process, and only the page directory, the
frames the call took and the table entries of the windows have changed.
-/
structure ImageLoaded
    (before after : KernelState) (windowTable pageDir start size : Nat) :
    Prop where
  image : ∀ offset < size, ∃ translation,
    translate after.mem pageDir offset = some translation ∧
      after.mem translation.addr = before.mem (start + offset)
  onlyAllocated : ∀ addr, after.mem addr ≠ before.mem addr →
    InRange pageDir pageSize addr ∨
      (addr / pageSize ∈ before.buddySys.freePages ∧
        addr / pageSize ∉ after.buddySys.freePages) ∨
      InRange (entryAddr windowTable 1020) 16 addr
  moduleIntact : ∀ offset < size,
    after.mem (start + offset) = before.mem (start + offset)

/-- An address in an aligned frame is in the page of the frame. -/
theorem page_of_inRange
    {frame addr : Nat}
    (aligned : 2 ^ 12 ∣ frame)
    (inside : InRange frame pageSize addr) :
    addr / pageSize = frame / pageSize := by
  obtain ⟨page, rfl⟩ := aligned
  simp only [InRange, pageSize] at inside ⊢
  omega

/-- An image of at most a page is loaded as it should be. -/
theorem Loaded.imageLoaded
    {kept : List Nat} {frames : ProgramFrames}
    (ready : MemoryReady state kernelDir windowTable)
    (startReserved : Reserved state kernelDir windowTable start)
    (different : start ≠ frames.dir)
    (result : Loaded state next kernelDir windowTable start size kept frames)
    (inPage : size ≤ pageSize) :
    ImageLoaded state next windowTable frames.dir start size := by
  obtain ⟨_, _, _, allocated⟩ := result.allocated
  have same := result.copied inPage
  have windowsAligned := ready.windows.windowTable_aligned
  have code := result.valid.aligned _ ProgramFrames.code_taken
  have codeNotWindows : frames.code ≠ windowTable :=
    (allocated.ne_of_held ready.windowTableHeld _
      ProgramFrames.code_taken).symm
  have startNotCode : start ≠ frames.code :=
    allocated.ne_of_held startReserved.held _ ProgramFrames.code_taken
  have startKept : Agree start pageSize next.mem state.mem := by
    have apart := frames_apart startReserved.aligned code.1 startNotCode
    refine (SameOffWindows.agree windowsAligned startReserved.aligned
      startReserved.windowTable same).trans
      ((agree_transfer (by omega)).trans
        (mappedProgram_agree result.valid startReserved.aligned
          (allocated.not_mem_tables startReserved.held different)))
  refine ⟨fun offset below => ?_, fun addr changed => ?_,
    fun offset below => ?_⟩
  · refine ⟨_, result.entries.translate_code result.valid (by omega), ?_⟩
    have inCode : InRange frames.code pageSize (frames.code + offset) :=
      ⟨by omega, by omega⟩
    have inStart : InRange start pageSize (start + offset) :=
      ⟨by omega, by omega⟩
    have copied := SameOffWindows.agree windowsAligned code.1 codeNotWindows
      same _ inCode
    rw [transfer_of_inRange ⟨by omega, by omega⟩,
      Nat.add_sub_cancel_left] at copied
    exact copied.trans
      (mappedProgram_agree result.valid startReserved.aligned
        (allocated.not_mem_tables startReserved.held different) _ inStart)
  · by_contra outside
    simp only [not_or] at outside
    obtain ⟨notDir, notTaken, notWindow⟩ := outside
    have notFrame : ∀ frame ∈ frames.taken, ¬ InRange frame pageSize addr := by
      intro frame member inside
      have page := page_of_inRange (allocated.aligned frame member).1 inside
      exact notTaken ⟨page ▸ allocated.wasFree frame member,
        page ▸ allocated.held frame member⟩
    have notCopied : ¬ InRange frames.code size addr := fun inside =>
      notFrame _ ProgramFrames.code_taken
        ⟨inside.1, Nat.lt_of_lt_of_le inside.2 (by omega)⟩
    refine changed ((same addr notWindow).trans ?_)
    rw [transfer_of_not_inRange notCopied, mappedProgram,
      mappedTable_outside (by omega) (by omega) notDir
        (notFrame _ ProgramFrames.stackTable_taken),
      mappedTable_outside (by omega) (by omega) notDir
        (notFrame _ ProgramFrames.codeTable_taken)]
  · exact startKept _ ⟨by omega, by omega⟩

/-- The page behind the code page is not mapped. -/
theorem Loaded.not_imageLoaded
    {kept : List Nat} {frames : ProgramFrames}
    (result : Loaded state next kernelDir windowTable start size kept frames)
    (long : pageSize < size) :
    ¬ ImageLoaded state next windowTable frames.dir start size := by
  intro image
  obtain ⟨translation, found, _⟩ := image.image pageSize long
  rw [result.entries.translate_past_code result.valid (Nat.le_refl _)
    (by decide)] at found
  cases found

end Results

end MatrixOS
