import MatrixOS.ProcessCreation

namespace MatrixOS

open ByteMemory Paging StateOption

/-!
# A program over the active directory

When the directory in `cr3` has been given back, the next creation may get its
page as the code page.  The image is then copied over the tables that the copy
itself goes through.  It survives that as long as the image brings along the
entry of the windows, and an entry for the directory to reach itself.
-/

/-- A page holds in one memory what another page holds in the other. -/
def SamePage (left : Memory) (first : Nat) (right : Memory) (second : Nat) :
    Prop :=
  ∀ offset < pageSize, left (first + offset) = right (second + offset)

section Pages

variable {left right middle : Memory} {first second third index frame : Nat}

theorem Agree.samePage (agree : Agree first pageSize left right) :
    SamePage left first right first :=
  fun offset below => agree _ ⟨by omega, by omega⟩

theorem SamePage.trans
    (earlier : SamePage left first middle third)
    (later : SamePage middle third right second) :
    SamePage left first right second :=
  fun offset below => (earlier offset below).trans (later offset below)

theorem SamePage.entryAt_eq
    (same : SamePage left first right second)
    (bound : index < 1024) :
    entryAt left first index = entryAt right second index := by
  refine load_eq_of_bytes fun offset below => ?_
  have byte := same (index * 4 + offset) (by simp only [pageSize]; omega)
  simpa only [entryAddr, Nat.add_assoc] using byte

theorem SamePage.pointsTo
    (same : SamePage left first right second)
    (bound : index < 1024)
    (entry : PointsTo right second index frame) :
    PointsTo left first index frame := by
  rw [PointsTo, same.entryAt_eq bound]
  exact entry

theorem samePage_transfer :
    SamePage (transfer left first second pageSize) first left second := by
  intro offset below
  rw [transfer_of_inRange ⟨by omega, by omega⟩, Nat.add_sub_cancel_left]

end Pages

/-- The image in the page `start` keeps the tables behind `dir` together. -/
structure CarriesTables
    (mem : Memory) (start dir : Nat) : Prop where
  windows : ∀ offset, 768 * 4 ≤ offset → offset < 769 * 4 →
    mem (start + offset) = mem (dir + offset)
  self : PointsTo mem start 1023 dir

theorem CarriesTables.congr
    {before after : Memory} {start dir : Nat}
    (carries : CarriesTables before start dir)
    (sameStart : Agree start pageSize after before)
    (sameDir : Agree dir pageSize after before) :
    CarriesTables after start dir where
  windows := by
    intro offset above below
    have inPage : offset < pageSize := by
      simp only [pageSize]
      omega
    exact (sameStart _ ⟨by omega, by omega⟩).trans
      ((carries.windows offset above below).trans
        (sameDir _ ⟨by omega, by omega⟩).symm)
  self := (Agree.samePage sameStart).pointsTo (by decide) carries.self

theorem CarriesTables.of_entries
    {mem : Memory} {start dir : Nat}
    (windows : entryAt mem start 768 = entryAt mem dir 768)
    (self : PointsTo mem start 1023 dir) :
    CarriesTables mem start dir := by
  refine ⟨fun offset above below => ?_, self⟩
  obtain ⟨inEntry, rfl⟩ : ∃ inEntry, offset = 768 * 4 + inEntry :=
    ⟨offset - 768 * 4, by omega⟩
  have byte := bytes_of_load_eq windows inEntry (by omega)
  simpa only [entryAddr, Nat.add_assoc] using byte

section Copy

variable {state : KernelState} {kernelDir windowTable start : Nat}

/-- The bytes of the entry of the windows are copied over themselves. -/
theorem CarriesTables.partly_copied
    {mem : Memory} {dir count : Nat}
    (carries : CarriesTables mem start dir) :
    Agree (entryAddr dir 768) 4 (transfer mem dir start count) mem := by
  intro addr inside
  simp only [InRange, entryAddr] at inside
  by_cases copied : InRange dir count addr
  · rw [transfer_of_inRange copied, carries.windows _ (by omega) (by omega)]
    congr 1
    omega
  · exact transfer_of_not_inRange copied

/-- The windows while the image is being copied over the active directory. -/
theorem Windows.memcpy_directory
    (windows : Windows state kernelDir windowTable
      (imageFrames start state.cr3))
    (startAligned : 2 ^ 12 ∣ start)
    (different : start ≠ state.cr3)
    (carries : CarriesTables state.mem start state.cr3) :
    MatrixOS.memcpy virtualAccess (windowAddr 1) (windowAddr 0) pageSize state =
      some ((), state.withMem
        (transfer state.mem state.cr3 start pageSize)) := by
  have tableKept : ∀ count ≤ pageSize, Agree windowTable pageSize
      (transfer state.mem state.cr3 start count) state.mem := by
    intro count inPage
    have apart := frames_apart windows.windowTable_aligned windows.dirAligned
      windows.tableApart.1
    exact agree_transfer (by omega)
  have leads : ∀ slot < tempMappingCount, ∀ frame,
      imageFrames start state.cr3 slot = some frame → ∀ i < pageSize,
      (state.withMem (transfer state.mem state.cr3 start i)).resolve
        (wrap32 (windowAddr slot + i)) = some (frame + i) := by
    intro slot inTable frame used i below
    have table : PointsTo (transfer state.mem state.cr3 start i) state.cr3 768
        windowTable :=
      windows.paging.dirWindows.congr carries.partly_copied
    have page : PointsTo (transfer state.mem state.cr3 start i) windowTable
        (1023 - slot) frame :=
      (windows.mapped slot inTable frame used).congr
        (entry_agree (by omega) (tableKept i (by omega)))
    rw [wrap32_windowAddr below]
    exact @resolve_mapped (state.withMem _) windowTable table slot frame i
      inTable page below
  refine memcpy_of_resolve
    (fun i below => leads 1 (by decide) _ imageFrames_dst i below)
    (fun i below => leads 0 (by decide) _ imageFrames_src i below) ?_
  intro i below
  have apart := frames_apart startAligned windows.dirAligned different
  simp only [InRange]
  omega

/-- After the copy the directory reaches itself, and the windows. -/
theorem Windows.withImage
    {frames : Nat → Option Nat}
    (windows : Windows state kernelDir windowTable frames)
    (carries : CarriesTables state.mem start state.cr3) :
    Windows (state.withMem (transfer state.mem state.cr3 start pageSize))
      state.cr3 windowTable frames := by
  have self : PointsTo (transfer state.mem state.cr3 start pageSize) state.cr3
      1023 state.cr3 :=
    samePage_transfer.pointsTo (by omega) carries.self
  have table : PointsTo (transfer state.mem state.cr3 start pageSize) state.cr3
      768 windowTable :=
    windows.paging.dirWindows.congr carries.partly_copied
  have apart := frames_apart windows.windowTable_aligned windows.dirAligned
    windows.tableApart.1
  refine ⟨⟨self, self, table, table⟩, windows.slots, ?_, windows.dirAligned,
    windows.tableApart.1, windows.tableApart.1⟩
  intro slot inTable frame used
  exact (windows.mapped slot inTable frame used).congr
    (entry_agree (by omega) (agree_transfer (by omega)))

/-- An image of one page is copied over the active directory. -/
theorem Windows.copyUserProgram_directory
    (windows : Windows state kernelDir windowTable fun _ => none)
    (startAligned : 2 ^ 12 ∣ start)
    (startInRange : start + 2 ^ 12 ≤ 2 ^ 32)
    (dirInRange : state.cr3 + 2 ^ 12 ≤ 2 ^ 32)
    (startApart : start ≠ windowTable)
    (different : start ≠ state.cr3)
    (carries : CarriesTables state.mem start state.cr3) :
    ∃ mem mgr,
      MatrixOS.copyUserProgram start state.cr3 pageSize state =
        some ((), state.withMapping mem mgr) ∧
      Windows (state.withMapping mem mgr) state.cr3 windowTable
        (fun _ => none) ∧
      SamePage mem state.cr3 state.mem start := by
  obtain ⟨mappedMem, mappedMgr, mapped, mappedWindows, mappedSame⟩ :=
    windows.mapImage startAligned startInRange windows.dirAligned dirInRange
      pageSize
  have tableAligned := windows.windowTable_aligned
  have startKept := SameOffWindows.agree tableAligned startAligned startApart
    mappedSame
  have dirKept := SameOffWindows.agree tableAligned windows.dirAligned
    windows.tableApart.1.symm mappedSame
  have stillCarries : CarriesTables mappedMem start state.cr3 := by
    refine ⟨fun offset above below => ?_,
      (Agree.samePage startKept).pointsTo (by omega) carries.self⟩
    have inPage : offset < pageSize := by
      simp only [pageSize]
      omega
    exact (startKept _ ⟨by omega, by omega⟩).trans
      ((carries.windows offset above below).trans
        (dirKept _ ⟨by omega, by omega⟩).symm)
  have copied := mappedWindows.memcpy_directory startAligned different
    stillCarries
  obtain ⟨mem, mgr, unmapped, lastWindows, same⟩ :=
    (mappedWindows.withImage stillCarries).unmapImage
  refine ⟨mem, mgr, ?_, lastWindows, ?_⟩
  · rw [mapped, bind_of_eq copied]
    exact unmapped
  · have lastKept := SameOffWindows.agree tableAligned windows.dirAligned
      windows.tableApart.1.symm same
    exact (Agree.samePage lastKept).trans
      (samePage_transfer.trans (Agree.samePage startKept))

end Copy

/-! ## The creation -/

/-- A creation that gets the active directory as its code page. -/
structure GetsDirectory
    (state : KernelState) (kernelDir windowTable start : Nat) : Prop where
  windows : Windows state kernelDir windowTable fun _ => none
  allocator : AllocatorReady state.buddySys
  kernelDirHeld : Held state.buddySys kernelDir
  windowTableHeld : Held state.buddySys windowTable
  free : FreeAtLeast state.buddySys 6
  code : handedOut state.buddySys 1 = state.cr3
  startAligned : 2 ^ 12 ∣ start
  startInRange : start + 2 ^ 12 ≤ 2 ^ 32
  startHeld : Held state.buddySys start
  startApart : start ≠ windowTable
  carries : CarriesTables state.mem start state.cr3

/-- What that creation has done. -/
structure Overwritten
    (before after : KernelState) (windowTable start slot : Nat)
    (name : List UInt8) : Prop where
  windows : Windows after before.cr3 windowTable fun _ => none
  cr3 : after.cr3 = before.cr3
  modules : after.modules = before.modules
  processes : after.processes = Function.update before.processes slot
    ((firstFrames before.buddySys).pcb before.nextPid name)
  nextPid : after.nextPid = wrap32 (before.nextPid + 1)
  takes : Takes before.buddySys after.buddySys
    (firstFrames before.buddySys).owned
  image : SamePage after.mem before.cr3 before.mem start

section Creation

variable {state : KernelState} {kernelDir windowTable slot : Nat}
variable {name : List UInt8} {module : ModuleInfo}

/-- A page that was free is none of the tables in use but the current one. -/
theorem GetsDirectory.clear
    (gets : GetsDirectory state kernelDir windowTable module.start)
    {table : Nat}
    (aligned : 2 ^ 12 ∣ table)
    (notCurrent : table ≠ state.cr3)
    (wasFree : table / pageSize ∈ state.buddySys.freePages) :
    Windows.Clear state.cr3 kernelDir windowTable table := by
  refine ⟨aligned, notCurrent, ?_, ?_⟩
  · rintro rfl
    exact gets.kernelDirHeld wasFree
  · rintro rfl
    exact gets.windowTableHeld wasFree

/-- With six free pages a process gets all its frames. -/
theorem FreeAtLeast.processFrames
    {sys : Pmm.BuddySystem}
    (free : FreeAtLeast sys 6)
    (ready : AllocatorReady sys) :
    ∃ frames kernelStack afterDir afterCode afterStack afterTable afterLoad after,
      Allocated sys frames.dir afterDir ∧
      LoadFrames afterDir frames afterCode afterStack afterTable afterLoad ∧
      Allocated afterLoad kernelStack after ∧
      (⟨frames, kernelStack⟩ : ProcessFrames) = firstFrames sys ∧
      Takes sys after (ProcessFrames.owned ⟨frames, kernelStack⟩) := by
  obtain ⟨dir, afterDir, dirTaken, readyDir, freeDir⟩ :=
    (show FreeAtLeast sys (5 + 1) from free).take ready
  obtain ⟨frames, afterCode, afterStack, afterTable, afterLoad, rfl, loadTaken,
    readyLoad, freeLoad⟩ :=
    (show FreeAtLeast afterDir (1 + 4) from freeDir).loadFrames readyDir dir
  obtain ⟨kernelStack, after, stackTaken, _, _⟩ :=
    (show FreeAtLeast afterLoad (0 + 1) from freeLoad).take readyLoad
  refine ⟨frames, kernelStack, afterDir, afterCode, afterStack, afterTable,
    afterLoad, after, dirTaken, loadTaken, stackTaken, ?_, ?_⟩
  · simp only [firstFrames, handedOut, remaining, dirTaken.run,
      loadTaken.code.run, loadTaken.stack.run, loadTaken.codeTable.run,
      loadTaken.stackTable.run, stackTaken.run]
  · exact ((Takes.refl.alloc dirTaken).trans
      ((((Takes.refl.alloc loadTaken.code).alloc loadTaken.stack).alloc
        loadTaken.codeTable).alloc loadTaken.stackTable)).alloc stackTaken

/-- Up to the copy, the image and the tables it carries stay as they were. -/
theorem GetsDirectory.mapsProgram
    {frames : ProgramFrames}
    {afterDir afterCode afterStack afterTable afterLoad : Pmm.BuddySystem}
    (gets : GetsDirectory state kernelDir windowTable module.start)
    (dirTaken : Allocated state.buddySys frames.dir afterDir)
    (loadTaken : LoadFrames afterDir frames afterCode afterStack afterTable
      afterLoad)
    (code : frames.code = state.cr3)
    (size : Nat) :
    ∃ middle mem mgr,
      middle.buddySys = afterDir ∧
      vmmCreateUserSpace state = some (frames.dir, middle) ∧
      vmmLoadUserProgram frames.dir module.start size middle =
        (copyUserProgram module.start state.cr3 size >>= fun _ => pure 1)
          ((state.withBuddySys afterLoad).withMapping mem mgr) ∧
      Windows ((state.withBuddySys afterLoad).withMapping mem mgr) kernelDir
        windowTable (fun _ => none) ∧
      Agree module.start pageSize mem state.mem ∧
      CarriesTables mem module.start state.cr3 := by
  have wasFree : ∀ frame ∈ frames.taken,
      frame / pageSize ∈ state.buddySys.freePages :=
    fun frame member =>
      ((dirTaken.remaining _).mp (loadTaken.wasFree frame member)).1
  have notDir := loadTaken.ne_of_held dirTaken.held
  have aligned := loadTaken.aligned
  -- The pages of the new tables are none of the tables in use.
  have dirClear := gets.clear dirTaken.aligned
    (code ▸ notDir _ ProgramFrames.code_taken) dirTaken.wasFree
  have codeTableClear := gets.clear
    (aligned _ ProgramFrames.codeTable_taken).1 (code ▸ loadTaken.apart.1.symm)
    (wasFree _ ProgramFrames.codeTable_taken)
  have stackTableClear := gets.clear
    (aligned _ ProgramFrames.stackTable_taken).1
    (code ▸ loadTaken.apart.2.1.symm)
    (wasFree _ ProgramFrames.stackTable_taken)
  obtain ⟨mem, mgr, createdRun, windows, createdSame⟩ :=
    gets.windows.vmmCreateUserSpace dirClear dirTaken
  obtain ⟨loadMem, loadMgr, loadRun, loadWindows, loadSame⟩ :=
    @Windows.vmmLoadUserProgram _ _ _ _ _ _ _ _ windows dirClear
      dirTaken.inRange codeTableClear stackTableClear loadTaken module.start
      size
  have valid := loadTaken.valid dirTaken.aligned dirTaken.held
  have tableAligned := gets.windows.windowTable_aligned
  have kept : ∀ frame, 2 ^ 12 ∣ frame → frame ≠ windowTable →
      frame ∉ frames.tables → Agree frame pageSize loadMem state.mem := by
    intro frame frameAligned notWindows notTable
    have notFrameDir : frame ≠ frames.dir := by
      rintro rfl
      exact notTable (by simp [ProgramFrames.tables])
    exact (loadSame.mappedProgram_agree tableAligned valid frameAligned
      notWindows notTable).trans
        (createdSame.createdSpace_agree tableAligned dirTaken.aligned
          frameAligned notWindows notFrameDir)
  have startNotDir := (dirTaken.ne_of_held gets.startHeld).symm
  have startKept := kept _ gets.startAligned gets.startApart
    (loadTaken.not_mem_tables (dirTaken.keeps gets.startHeld) startNotDir)
  have dirKept := kept _ gets.windows.dirAligned
    gets.windows.tableApart.1.symm
    (code ▸ loadTaken.code_not_mem_tables dirTaken.held)
  rw [code] at loadRun
  exact ⟨_, loadMem, loadMgr, rfl, createdRun, loadRun, loadWindows, startKept,
    gets.carries.congr startKept dirKept⟩

theorem processCreateFromModule_overwritten
    (gets : GetsDirectory state kernelDir windowTable module.start)
    (found :
      state.modules.find? (fun module => module.name = name) = some module)
    (unused : findUnusedSlot state.processes = some slot)
    (size : module.size = pageSize) :
    Returns (processCreateFromModule name) state fun pid next =>
      pid = state.nextPid ∧
        Overwritten state next windowTable module.start slot name := by
  obtain ⟨frames, kernelStack, afterDir, afterCode, afterStack, afterTable,
    afterLoad, sys, dirTaken, loadTaken, stackTaken, framesEq, takes⟩ :=
    FreeAtLeast.processFrames gets.free gets.allocator
  have code : frames.code = state.cr3 := by
    rw [← gets.code]
    exact congrArg (fun frames => frames.code) framesEq
  obtain ⟨middle, mem, mgr, rfl, createdRun, loadRun, loadWindows, startKept,
    carries⟩ :=
    gets.mapsProgram dirTaken loadTaken code module.size
  have startNotCode : module.start ≠ state.cr3 := by
    rw [← code]
    exact loadTaken.ne_of_held (dirTaken.keeps gets.startHeld) _
      ProgramFrames.code_taken
  obtain ⟨lastMem, lastMgr, copyRun, lastWindows, image⟩ :=
    loadWindows.copyUserProgram_directory gets.startAligned gets.startInRange
      (code ▸ (loadTaken.aligned _ ProgramFrames.code_taken).2) gets.startApart
      startNotCode carries
  rw [← size] at copyRun
  have wholeRun := loadRun.trans (bind_of_eq copyRun)
  refine (@processCreateFromModule_enters _ _ _ _ _ _ _ _
    ⟨frames, kernelStack⟩ sys found unused createdRun dirTaken wholeRun
    lastWindows stackTaken).mono ?_
  rintro pid next ⟨rfl, looked⟩
  have imageKept := SameOffWindows.agree gets.windows.windowTable_aligned
    gets.windows.dirAligned gets.windows.tableApart.1.symm looked.same
  refine ⟨rfl, looked.windows, ?_, ?_, ?_, ?_, ?_, ?_⟩
  · rw [looked.memoryOnly]
    rfl
  · rw [looked.memoryOnly]
    rfl
  · rw [looked.memoryOnly, ← framesEq]
    rfl
  · rw [looked.memoryOnly]
    rfl
  · rw [← framesEq, show next.buddySys = sys by rw [looked.memoryOnly]; rfl]
    exact takes
  · exact (Agree.samePage imageKept).trans
      (image.trans (Agree.samePage startKept))

end Creation

end MatrixOS
