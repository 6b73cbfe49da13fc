import MatrixOS.ProcessTable
import MatrixOS.UserSpace

namespace MatrixOS

open ByteMemory Paging StateOption

/-!
# Creating a process

Everything `process_create_from_module` can do: the ways in which it gives up,
and the frames, tables and table entry of a process that it has created.
-/

/-! ## The verification of the page tables -/

/-- The mask the kernel takes the frame out of an entry with. -/
theorem entryAt_and_frameMask (mem : Memory) (table index : Nat) :
    entryAt mem table index &&& 0xFFFFF000 =
      frameOf (entryAt mem table index) :=
  and_not32_mask (load_lt mem 4 _) (show 12 ≤ 32 by decide)

theorem frameOf_bounds (mem : Memory) (table index : Nat) :
    2 ^ 12 ∣ frameOf (entryAt mem table index) ∧
      frameOf (entryAt mem table index) + 2 ^ 12 ≤ 2 ^ 32 := by
  have range : entryAt mem table index < 2 ^ 32 := load_lt mem 4 _
  rw [frameOf]
  exact ⟨Nat.dvd_mul_left _ _, by omega⟩

namespace Windows

variable {state : KernelState} {kernelDir windowTable slot frame : Nat}
variable {frames : Nat → Option Nat}

/-- Reading a word of the page in a window. -/
theorem load32
    (windows : Windows state kernelDir windowTable frames)
    (inTable : slot < tempMappingCount)
    (used : frames slot = some frame)
    {index : Nat}
    (bound : index < 1024) :
    MatrixOS.load32 (windowAddr slot + index * 4) state =
      some (entryAt state.mem frame index, state) :=
  load32_of_resolve (resolve_window windows.paging inTable
    (windows.mapped slot inTable frame used) (by omega))

/-- The dump reads the page in a window and nothing else. -/
theorem dumpUserCode
    (windows : Windows state kernelDir windowTable frames)
    (inTable : slot < tempMappingCount)
    (used : frames slot = some frame)
    {count : Nat}
    (inPage : count ≤ pageSize) :
    MatrixOS.dumpUserCode (windowAddr slot) count state = some ((), state) := by
  induction count with
  | zero =>
      rfl
  | succ count inductionHypothesis =>
      have read := load8_of_resolve (resolve_window windows.paging inTable
        (windows.mapped slot inTable frame used)
        (Nat.lt_of_succ_le inPage))
      rw [MatrixOS.dumpUserCode, bind_of_eq (inductionHypothesis (by omega))]
      exact (bind_of_eq read).trans rfl

end Windows

/-- Only windows have changed, and these are the ones in use now. -/
structure Looked
    (before after : KernelState) (kernelDir windowTable : Nat)
    (frames : Nat → Option Nat) : Prop where
  memoryOnly : after = before.withMapping after.mem after.tempMgr
  windows : Windows after kernelDir windowTable frames
  same : SameOffWindows windowTable after.mem before.mem

section Looked

variable {before state after : KernelState} {kernelDir windowTable : Nat}
variable {slot frame dir : Nat} {frames others : Nat → Option Nat}

theorem Looked.trans
    (first : Looked before state kernelDir windowTable others)
    (second : Looked state after kernelDir windowTable frames) :
    Looked before after kernelDir windowTable frames where
  memoryOnly := by
    rw [second.memoryOnly, first.memoryOnly]
    rfl
  windows := second.windows
  same := second.same.trans first.same

theorem Looked.refl
    (windows : Windows state kernelDir windowTable frames) :
    Looked state state kernelDir windowTable frames :=
  ⟨rfl, windows, SameOffWindows.refl _⟩

/-- The window that has been taken last is given back. -/
theorem Looked.unmap
    (looked : Looked before state kernelDir windowTable
      (Function.update frames slot (some frame)))
    (inTable : slot < tempMappingCount)
    (free : frames slot = none) :
    Returns (tempUnmapPage (windowAddr slot)) state fun _ after =>
      Looked before after kernelDir windowTable frames := by
  obtain ⟨mgr, unmapped, windows⟩ := looked.windows.unmap inTable (by simp)
  rw [Function.update_idem, ← free, Function.update_eq_self] at windows
  exact Returns.of_eq unmapped
    (looked.trans ⟨rfl, windows, SameOffWindows.windowEntry _ inTable 0⟩)

theorem Looked.map
    (looked : Looked before state kernelDir windowTable frames)
    (inTable : slot < tempMappingCount)
    (free : frames slot = none)
    (lowest : ∀ lower < slot, frames lower ≠ none)
    (aligned : 2 ^ 12 ∣ frame)
    (inRange : frame + 2 ^ 12 ≤ 2 ^ 32) :
    Returns (tempMapPage frame) state fun ptr after =>
      ptr = windowAddr slot ∧
        Looked before after kernelDir windowTable
          (Function.update frames slot (some frame)) := by
  obtain ⟨mgr, mapped, windows⟩ :=
    looked.windows.map inTable free lowest aligned inRange
  exact Returns.of_eq mapped ⟨rfl,
    looked.trans ⟨rfl, windows, SameOffWindows.windowEntry _ inTable _⟩⟩

/-- The windows while the tables of a process are looked at. -/
def lookFrames (dir : Nat) : Nat → Option Nat :=
  Function.update (fun _ => none) 0 (some dir)

/-- Looking at the page tables of a process changes nothing but windows. -/
theorem Windows.verifyPageTables
    (windows : Windows state kernelDir windowTable fun _ => none)
    (aligned : 2 ^ 12 ∣ dir)
    (inRange : dir + 2 ^ 12 ≤ 2 ^ 32) :
    Returns (MatrixOS.verifyPageTables dir) state fun _ after =>
      Looked state after kernelDir windowTable fun _ => none := by
  have first : 0 < tempMappingCount := by decide
  have second : 1 < tempMappingCount := by decide
  have third : 2 < tempMappingCount := by decide
  have dirFree : ∀ lower < 1, lookFrames dir lower ≠ none := by
    intro lower below
    obtain rfl : lower = 0 := by omega
    simp [lookFrames]
  refine ((Looked.refl windows).map first rfl
    (fun _ below => absurd below (Nat.not_lt_zero _)) aligned inRange).bind ?_
  rintro _ dirState ⟨rfl, dirLooked⟩
  refine Returns.step (dirLooked.windows.load32 first
    (Function.update_self ..) (show 0 < 1024 by decide)) ?_
  have unmapDir := dirLooked.unmap first rfl
  split
  · rw [entryAt_and_frameMask]
    obtain ⟨tableAligned, tableInRange⟩ := frameOf_bounds dirState.mem dir 0
    refine (dirLooked.map second rfl dirFree tableAligned tableInRange).bind ?_
    rintro _ tableState ⟨rfl, tableLooked⟩
    refine Returns.step (tableLooked.windows.load32 second
      (Function.update_self ..) (show 0 < 1024 by decide)) ?_
    have unmapBoth : ∀ {next : KernelState},
        Looked state next kernelDir windowTable
          (Function.update (lookFrames dir) 1
            (some (frameOf (entryAt dirState.mem dir 0)))) →
        Returns
          (tempUnmapPage (windowAddr 1) >>= fun _ =>
            tempUnmapPage (windowAddr 0)) next fun _ after =>
          Looked state after kernelDir windowTable fun _ => none :=
      fun looked => (looked.unmap second rfl).bind fun _ _ left =>
        left.unmap first rfl
    split
    · rw [entryAt_and_frameMask]
      obtain ⟨pageAligned, pageInRange⟩ := frameOf_bounds tableState.mem
        (frameOf (entryAt dirState.mem dir 0)) 0
      dsimp only
      split
      · refine (tableLooked.map third rfl ?_ pageAligned pageInRange).bind ?_
        · intro lower below
          rcases Nat.lt_or_ge lower 1 with isFirst | isSecond
          · rw [Function.update_of_ne (by omega)]
            exact dirFree lower isFirst
          · obtain rfl : lower = 1 := by omega
            simp
        rintro _ pageState ⟨rfl, pageLooked⟩
        refine Returns.step (pageLooked.windows.dumpUserCode third
          (Function.update_self ..) (by decide)) ?_
        exact (pageLooked.unmap third rfl).bind fun _ _ left => unmapBoth left
      · exact unmapBoth tableLooked
    · exact unmapBoth tableLooked
  · exact unmapDir

end Looked

/-! ## Loading a program -/

/-- A `vmm_load_user_program` that has given everything back. -/
structure NotLoaded
    (before after : KernelState) (kernelDir windowTable : Nat) : Prop where
  takes : Takes before.buddySys after.buddySys []
  windows : Windows after kernelDir windowTable fun _ => none
  memoryOnly :
    after = (before.withBuddySys after.buddySys).withMapping after.mem
      after.tempMgr
  same : SameOffWindows windowTable after.mem before.mem

/-- Frames have been given back after the windows were used. -/
theorem Looked.notLoaded
    {state last : KernelState} {kernelDir windowTable : Nat}
    (sys : Pmm.BuddySystem)
    {freed : Pmm.BuddySystem}
    (looked : Looked (state.withBuddySys sys) last kernelDir windowTable
      fun _ => none)
    (takes : Takes state.buddySys freed []) :
    NotLoaded state (last.withBuddySys freed) kernelDir windowTable where
  takes := takes
  windows := looked.windows.withBuddySys freed
  memoryOnly := by
    rw [looked.memoryOnly]
    rfl
  same := looked.same

theorem Looked.withBuddySys
    {before after : KernelState} {kernelDir windowTable : Nat}
    {frames : Nat → Option Nat}
    (looked : Looked before after kernelDir windowTable frames)
    (buddySys : Pmm.BuddySystem) :
    Looked (before.withBuddySys buddySys) (after.withBuddySys buddySys)
      kernelDir windowTable frames where
  memoryOnly := by
    rw [looked.memoryOnly]
    rfl
  windows := looked.windows.withBuddySys buddySys
  same := looked.same

theorem Looked.buddySys
    {before after : KernelState} {kernelDir windowTable : Nat}
    {frames : Nat → Option Nat}
    (looked : Looked before after kernelDir windowTable frames) :
    after.buddySys = before.buddySys := by
  rw [looked.memoryOnly]
  rfl

section Load

variable {state : KernelState} {kernelDir windowTable pageDir start size : Nat}

/-- Without a stack page the code page goes back. -/
theorem vmmLoadUserProgram_noStack
    {code : Nat} {afterCode : Pmm.BuddySystem}
    (start size : Nat)
    (ready : MemoryReady state kernelDir windowTable)
    (codeTaken : Allocated state.buddySys code afterCode)
    (failed : Pmm.pmmAllocPages afterCode 0 = (0, afterCode)) :
    Returns (vmmLoadUserProgram pageDir start size) state fun value next =>
      value = 0 ∧ NotLoaded state next kernelDir windowTable := by
  refine Returns.step (pmmAllocPages_eq codeTaken.run) ?_
  rw [if_neg codeTaken.nonzero]
  refine Returns.step (pmmAllocPages_eq failed) (Returns.step rfl ?_)
  exact Returns.pure ⟨rfl, (Takes.refl.alloc codeTaken).free,
    ready.windows.withBuddySys _, rfl, SameOffWindows.refl _⟩

/-- With both pages taken the directory is mapped into the first window. -/
theorem mapsDirectory
    (sys : Pmm.BuddySystem)
    (ready : MemoryReady state kernelDir windowTable)
    (dirReserved : Reserved state kernelDir windowTable pageDir) :
    Returns (tempMapPage pageDir) (state.withBuddySys sys) fun value next =>
      value = windowAddr 0 ∧
        Looked (state.withBuddySys sys) next kernelDir windowTable
          (Function.update (fun _ => none) 0 (some pageDir)) :=
  (Looked.refl (ready.windows.withBuddySys sys)).map (by decide) rfl
    (fun _ below => absurd below (Nat.not_lt_zero _))
    dirReserved.aligned dirReserved.inRange

/-- Without a page for the table of the code both pages go back. -/
theorem vmmLoadUserProgram_noCodeTable
    {code stack : Nat} {afterCode afterStack : Pmm.BuddySystem}
    (start size : Nat)
    (ready : MemoryReady state kernelDir windowTable)
    (dirReserved : Reserved state kernelDir windowTable pageDir)
    (codeTaken : Allocated state.buddySys code afterCode)
    (stackTaken : Allocated afterCode stack afterStack)
    (failed : Pmm.pmmAllocPages afterStack 0 = (0, afterStack)) :
    Returns (vmmLoadUserProgram pageDir start size) state fun value next =>
      value = 0 ∧ NotLoaded state next kernelDir windowTable := by
  have two := ((Takes.refl.alloc codeTaken).alloc stackTaken).perm
    (List.Perm.swap code stack [])
  refine Returns.step (pmmAllocPages_eq codeTaken.run) ?_
  rw [if_neg codeTaken.nonzero]
  refine Returns.step (pmmAllocPages_eq stackTaken.run) ?_
  rw [if_neg stackTaken.nonzero]
  refine (mapsDirectory afterStack ready dirReserved).bind ?_
  rintro _ next ⟨rfl, looked⟩
  have sys : next.buddySys = afterStack := looked.buddySys
  refine Returns.step (pmmAllocPages_eq (sys ▸ failed)) ?_
  rw [if_pos rfl]
  refine (looked.unmap (by decide) rfl).bind fun _ last lastLooked => ?_
  refine Returns.step rfl (Returns.step rfl (Returns.pure ⟨rfl, ?_⟩))
  have lastSys : last.buddySys = afterStack := lastLooked.buddySys
  rw [← lastSys] at two
  have freed := Looked.notLoaded afterStack lastLooked two.free.free
  exact freed

/-- Without a page for the table of the stack all three pages go back. -/
theorem vmmLoadUserProgram_noStackTable
    {code stack codeTable : Nat}
    {afterCode afterStack afterTable : Pmm.BuddySystem}
    (start size : Nat)
    (ready : MemoryReady state kernelDir windowTable)
    (dirReserved : Reserved state kernelDir windowTable pageDir)
    (codeTaken : Allocated state.buddySys code afterCode)
    (stackTaken : Allocated afterCode stack afterStack)
    (tableTaken : Allocated afterStack codeTable afterTable)
    (failed : Pmm.pmmAllocPages afterTable 0 = (0, afterTable)) :
    Returns (vmmLoadUserProgram pageDir start size) state fun value next =>
      value = 0 ∧ NotLoaded state next kernelDir windowTable := by
  have three := (((Takes.refl.alloc codeTaken).alloc stackTaken).alloc
    tableTaken).perm
      (((List.Perm.swap stack codeTable [code]).trans
        ((List.Perm.swap code codeTable []).cons stack)).trans
          (List.Perm.swap code stack [codeTable]))
  refine Returns.step (pmmAllocPages_eq codeTaken.run) ?_
  rw [if_neg codeTaken.nonzero]
  refine Returns.step (pmmAllocPages_eq stackTaken.run) ?_
  rw [if_neg stackTaken.nonzero]
  refine (mapsDirectory afterStack ready dirReserved).bind ?_
  rintro _ next ⟨rfl, looked⟩
  have sys : next.buddySys = afterStack := looked.buddySys
  refine Returns.step (pmmAllocPages_eq (sys ▸ tableTaken.run)) ?_
  rw [if_neg tableTaken.nonzero]
  refine Returns.step (pmmAllocPages_eq failed) ?_
  rw [if_pos rfl]
  have tableLooked : Looked (state.withBuddySys afterTable)
      (next.withBuddySys afterTable) kernelDir windowTable _ :=
    looked.withBuddySys afterTable
  refine (tableLooked.unmap (by decide) rfl).bind fun _ last lastLooked => ?_
  refine Returns.step rfl (Returns.step rfl (Returns.step rfl
    (Returns.pure ⟨rfl, ?_⟩)))
  have lastSys : last.buddySys = afterTable := lastLooked.buddySys
  rw [← lastSys] at three
  have freed := Looked.notLoaded afterTable lastLooked three.free.free.free
  exact freed

/-- `vmm_load_user_program` gets its four frames, or it returns 0. -/
theorem vmmLoadUserProgram_cases
    (start size : Nat)
    (ready : MemoryReady state kernelDir windowTable)
    (dirReserved : Reserved state kernelDir windowTable pageDir) :
    (∃ frames afterCode afterStack afterTable after, frames.dir = pageDir ∧
      LoadFrames state.buddySys frames afterCode afterStack afterTable after) ∨
    Returns (vmmLoadUserProgram pageDir start size) state fun value next =>
      value = 0 ∧ NotLoaded state next kernelDir windowTable := by
  rcases ready.allocator.alloc_cases with
    ⟨code, afterCode, codeTaken, readyCode⟩ | failed
  swap
  · refine Or.inr (Returns.step (pmmAllocPages_eq failed) ?_)
    exact Returns.pure
      ⟨rfl, Takes.refl, ready.windows, rfl, SameOffWindows.refl _⟩
  rcases readyCode.alloc_cases with
    ⟨stack, afterStack, stackTaken, readyStack⟩ | failed
  swap
  · exact Or.inr (vmmLoadUserProgram_noStack start size ready codeTaken failed)
  rcases readyStack.alloc_cases with
    ⟨codeTable, afterTable, tableTaken, readyTable⟩ | failed
  swap
  · exact Or.inr (vmmLoadUserProgram_noCodeTable start size ready dirReserved
      codeTaken stackTaken failed)
  rcases readyTable.alloc_cases with
    ⟨stackTable, after, lastTaken, _⟩ | failed
  swap
  · exact Or.inr (vmmLoadUserProgram_noStackTable start size ready dirReserved
      codeTaken stackTaken tableTaken failed)
  exact Or.inl ⟨⟨pageDir, code, stack, codeTable, stackTable⟩, afterCode,
    afterStack, afterTable, after, rfl,
    ⟨codeTaken, stackTaken, tableTaken, lastTaken⟩⟩

/-- Everything `vmm_load_user_program` can do. -/
theorem vmmLoadUserProgram_ensures
    (kept : List Nat)
    (ready : MemoryReady state kernelDir windowTable)
    (dirReserved : Reserved state kernelDir windowTable pageDir)
    (startReserved : Reserved state kernelDir windowTable start)
    (different : start ≠ pageDir)
    (keptHeld : ∀ frame ∈ kept,
      2 ^ 12 ∣ frame ∧ Held state.buddySys frame ∧ frame ≠ start)
    (behind : 2 * pageSize < size →
      BehindWindows state.mem state.cr3 fun frame =>
        Reserved state kernelDir windowTable frame ∧
          frame ≠ start ∧ frame ≠ pageDir ∧ frame ∉ kept) :
    Ensures (vmmLoadUserProgram pageDir start size) state fun value next =>
      (value = 1 ∧ ∃ frames, frames.dir = pageDir ∧
        Loaded state next kernelDir windowTable start size kept frames) ∨
      (value = 0 ∧ NotLoaded state next kernelDir windowTable ∧
        ¬ FreeAtLeast state.buddySys 4) := by
  have loads : ∀ {frames afterCode afterStack afterTable after},
      frames.dir = pageDir →
      LoadFrames state.buddySys frames afterCode afterStack afterTable after →
      Ensures (vmmLoadUserProgram pageDir start size) state fun value next =>
        value = 1 ∧ ∃ frames, frames.dir = pageDir ∧
          Loaded state next kernelDir windowTable start size kept frames := by
    rintro frames _ _ _ _ rfl allocated value next run
    obtain ⟨mem, mgr, same, _⟩ :=
      vmmLoadUserProgram_eq ready dirReserved allocated start size
    obtain ⟨_, copied, _, returned⟩ := bind_eq_some.mp (same.symm.trans run)
    obtain ⟨rfl, rfl⟩ := Prod.mk.inj (Option.some.inj returned)
    exact ⟨rfl, vmmLoadUserProgram_loaded kept ready dirReserved
      startReserved different keptHeld behind run⟩
  by_cases enough : FreeAtLeast state.buddySys (0 + 4)
  · obtain ⟨frames, _, _, _, _, isDir, allocated, _⟩ :=
      enough.loadFrames ready.allocator pageDir
    exact (loads isDir allocated).mono fun _ _ => Or.inl
  · rcases vmmLoadUserProgram_cases start size ready dirReserved with
      ⟨frames, _, _, _, after, isDir, allocated⟩ | gaveUp
    · exact (loads isDir allocated).mono fun _ _ => Or.inl
    · exact gaveUp.ensures.mono fun _ _ failed =>
        Or.inr ⟨failed.1, failed.2, enough⟩

end Load

/-! ## What creation leaves alone -/

/-- A module that can be loaded while the frames `kept` are in use. -/
structure ModuleReady
    (state : KernelState) (kernelDir windowTable : Nat) (kept : List Nat)
    (module : ModuleInfo) : Prop where
  reserved : Reserved state kernelDir windowTable module.start
  keptHeld : ∀ frame ∈ kept,
    2 ^ 12 ∣ frame ∧ Held state.buddySys frame ∧ frame ≠ module.start
  behind : 2 * pageSize < module.size →
    BehindWindows state.mem state.cr3 fun frame =>
      Reserved state kernelDir windowTable frame ∧ frame ≠ module.start ∧
        frame ∉ kept

/--
The memory manager can still be called, and the frames `kept` have their
contents; so has the table behind the windows when the image may reach it.
-/
structure CreationKeeps
    (before after : KernelState) (kernelDir windowTable size : Nat)
    (kept : List Nat) : Prop where
  ready : MemoryReady after kernelDir windowTable
  cr3 : after.cr3 = before.cr3
  modules : after.modules = before.modules
  keeps : ∀ frame ∈ kept, frame ≠ windowTable →
    Agree frame pageSize after.mem before.mem
  keepsBehind : 2 * pageSize < size →
    ∀ table, PointsTo before.mem before.cr3 769 table →
      Agree table pageSize after.mem before.mem

section Keeps

variable {before middle after : KernelState}
variable {kernelDir windowTable size dir start : Nat} {kept : List Nat}
variable {module : ModuleInfo} {frames : ProgramFrames}

/-- The entry behind the windows is kept with the directory. -/
theorem CreationKeeps.behind_iff
    (first : CreationKeeps before after kernelDir windowTable size kept)
    (dirKept : before.cr3 ∈ kept)
    {table : Nat} :
    PointsTo after.mem after.cr3 769 table ↔
      PointsTo before.mem before.cr3 769 table := by
  have different : before.cr3 ≠ windowTable := by
    rw [← first.cr3]
    exact first.ready.windows.tableApart.1.symm
  have agree := Windows.entry_agree (show 769 < 1024 by omega)
    (first.keeps _ dirKept different)
  rw [first.cr3]
  exact ⟨fun points => points.congr agree.symm,
    fun points => points.congr agree⟩

theorem CreationKeeps.trans
    (first : CreationKeeps before middle kernelDir windowTable size kept)
    (second : CreationKeeps middle after kernelDir windowTable size kept)
    (dirKept : before.cr3 ∈ kept) :
    CreationKeeps before after kernelDir windowTable size kept where
  ready := second.ready
  cr3 := second.cr3.trans first.cr3
  modules := second.modules.trans first.modules
  keeps := fun frame member different =>
    (second.keeps frame member different).trans
      (first.keeps frame member different)
  keepsBehind := by
    intro long table points
    have later := (first.behind_iff dirKept).mpr points
    exact (second.keepsBehind long table later).trans
      (first.keepsBehind long table points)

/-- The memory is ready while frames are only taken. -/
theorem MemoryReady.of_takes
    {taken : List Nat}
    (ready : MemoryReady before kernelDir windowTable)
    (takes : Takes before.buddySys after.buddySys taken)
    (cr3 : after.cr3 = before.cr3)
    (windows : Windows after kernelDir windowTable fun _ => none) :
    MemoryReady after kernelDir windowTable where
  windows := windows
  allocator := takes.ready ready.allocator
  dirHeld := by
    rw [cr3]
    exact takes.keeps ready.allocator ready.dirHeld
  kernelDirHeld := takes.keeps ready.allocator ready.kernelDirHeld
  windowTableHeld := takes.keeps ready.allocator ready.windowTableHeld

theorem CreationKeeps.of_takes
    {taken : List Nat}
    (ready : MemoryReady before kernelDir windowTable)
    (takes : Takes before.buddySys after.buddySys taken)
    (cr3 : after.cr3 = before.cr3)
    (modules : after.modules = before.modules)
    (windows : Windows after kernelDir windowTable fun _ => none)
    (same : SameOffWindows windowTable after.mem before.mem)
    (aligned : ∀ frame ∈ kept, 2 ^ 12 ∣ frame)
    (behind : 2 * pageSize < size →
      ∀ table, PointsTo before.mem before.cr3 769 table →
        table ≠ windowTable) :
    CreationKeeps before after kernelDir windowTable size kept where
  ready := ready.of_takes takes cr3 windows
  cr3 := cr3
  modules := modules
  keeps := fun frame member different =>
    SameOffWindows.agree windows.windowTable_aligned (aligned frame member)
      different same
  keepsBehind := fun long table points =>
    SameOffWindows.agree windows.windowTable_aligned points.frame_lt.2
      (behind long table points) same

theorem Created.creationKeeps
    (created : Created before after kernelDir windowTable dir)
    (moduleReady : ModuleReady before kernelDir windowTable kept module) :
    CreationKeeps before after kernelDir windowTable module.size kept where
  ready := created.ready
  cr3 := by
    rw [created.memoryOnly]
    rfl
  modules := by
    rw [created.memoryOnly]
    rfl
  keeps := by
    intro frame member different
    obtain ⟨aligned, held, _⟩ := moduleReady.keptHeld frame member
    exact created.keeps frame aligned different
      (created.allocated.ne_of_held held).symm
  keepsBehind := by
    intro long table points
    obtain ⟨reserved, _⟩ := (moduleReady.behind long).table_apart points
    exact created.keeps table points.frame_lt.2 reserved.windowTable
      (created.allocated.ne_of_held reserved.held).symm

/-- The frames a load has taken. -/
theorem LoadFrames.takes
    {sys afterCode afterStack afterTable last : Pmm.BuddySystem}
    (allocated : LoadFrames sys frames afterCode afterStack afterTable last) :
    Takes sys last
      [frames.stackTable, frames.codeTable, frames.stack, frames.code] :=
  (((Takes.refl.alloc allocated.code).alloc allocated.stack).alloc
    allocated.codeTable).alloc allocated.stackTable

theorem Loaded.takes
    (loaded : Loaded before after kernelDir windowTable start size kept
      frames) :
    Takes before.buddySys after.buddySys
      [frames.stackTable, frames.codeTable, frames.stack, frames.code] := by
  obtain ⟨_, _, _, allocated⟩ := loaded.allocated
  exact allocated.takes

theorem Loaded.creationKeeps
    (ready : MemoryReady before kernelDir windowTable)
    (loaded : Loaded before after kernelDir windowTable start size kept frames)
    (apart : frames.dir ∉ kept) :
    CreationKeeps before after kernelDir windowTable size kept := by
  have cr3 : after.cr3 = before.cr3 := by
    rw [loaded.memoryOnly]
    rfl
  have modules : after.modules = before.modules := by
    rw [loaded.memoryOnly]
    rfl
  exact ⟨ready.of_takes loaded.takes cr3 loaded.windows, cr3, modules,
    fun frame member different => loaded.keeps frame member different
      fun isDir => apart (isDir ▸ member),
    loaded.keepsBehind⟩

end Keeps

/-! ## The two results of a creation -/

/-- The upper half of a directory is the kernel's. -/
def kernelHalf (mem : Memory) (kernelDir index : Nat) : Nat :=
  if 768 ≤ index then entryAt mem kernelDir index else 0

/-- A creation that has given up; frames it has leaked are in no list. -/
structure NotCreated
    (before after : KernelState) (kernelDir windowTable size : Nat)
    (kept : List Nat) : Prop
    extends CreationKeeps before after kernelDir windowTable size kept where
  same : SameProcesses before after
  takes : ∃ leaked, Takes before.buddySys after.buddySys leaked

/-- A creation that has entered a process into the table. -/
structure ProcessCreated
    (before after : KernelState) (kernelDir windowTable : Nat)
    (kept : List Nat) (module : ModuleInfo) (name : List UInt8) (slot : Nat)
    (frames : ProcessFrames) : Prop
    extends CreationKeeps before after kernelDir windowTable module.size
      kept where
  entered : Entered before after slot (frames.pcb before.nextPid name)
  valid : frames.toProgramFrames.Valid
  inRange : frames.kernelStack + 2 ^ 12 ≤ 2 ^ 32
  dirNonzero : frames.dir ≠ 0
  takes : Takes before.buddySys after.buddySys frames.owned
  entries : SpaceEntries after.mem frames.toProgramFrames
    (kernelHalf before.mem kernelDir)
  code : module.size ≤ pageSize → ∀ offset < pageSize,
    after.mem (frames.code + offset) =
      if offset < module.size then before.mem (module.start + offset)
      else before.mem (frames.code + offset)
  stack : module.size ≤ pageSize →
    Agree frames.stack pageSize after.mem before.mem

/-! ## A successful creation -/

section Frames

variable {state middle next : KernelState} {frames : ProgramFrames}
variable {kernelDir windowTable start size : Nat} {kept : List Nat}

theorem SpaceEntries.congr_others
    {mem : Memory} {others same : Nat → Nat}
    (entries : SpaceEntries mem frames others)
    (agree : ∀ index < 1024, others index = same index) :
    SpaceEntries mem frames same where
  dir := by
    intro index bound
    rw [entries.dir index bound, agree index bound]
  codeTable := entries.codeTable
  stackTable := entries.stackTable

/-- The stack page is no page a load writes to. -/
theorem LoadFrames.stack_apart
    {before afterCode afterStack afterTable after : Pmm.BuddySystem}
    (allocated : LoadFrames before frames afterCode afterStack afterTable after)
    (dirHeld : Held before frames.dir) :
    frames.stack ∉ frames.tables ∧ frames.stack ≠ frames.code := by
  have notDir := allocated.ne_of_held dirHeld frames.stack
    (by simp [ProgramFrames.taken])
  have codeTable := allocated.codeTable.ne_of_held allocated.stack.held
  have stackTable := allocated.stackTable.ne_of_held
    (allocated.codeTable.keeps allocated.stack.held)
  refine ⟨?_, allocated.stack.ne_of_held allocated.code.held⟩
  simp [ProgramFrames.tables, notDir.symm, codeTable.symm, stackTable.symm]

/-- What a load leaves in the code page and in the stack page. -/
theorem Loaded.pages
    (ready : MemoryReady state kernelDir windowTable)
    (dirHeld : Held state.buddySys frames.dir)
    (startReserved : Reserved state kernelDir windowTable start)
    (different : start ≠ frames.dir)
    (loaded : Loaded state next kernelDir windowTable start size kept frames)
    (inPage : size ≤ pageSize) :
    (∀ offset < pageSize, next.mem (frames.code + offset) =
      if offset < size then state.mem (start + offset)
      else state.mem (frames.code + offset)) ∧
    Agree frames.stack pageSize next.mem state.mem := by
  obtain ⟨_, _, _, allocated⟩ := loaded.allocated
  have same := loaded.copied inPage
  have valid := loaded.valid
  have windowsAligned := ready.windows.windowTable_aligned
  have notWindows := allocated.ne_of_held ready.windowTableHeld
  obtain ⟨codeAligned, _⟩ := valid.aligned _ ProgramFrames.code_taken
  have stackTaken : frames.stack ∈ frames.taken := by
    simp [ProgramFrames.taken]
  obtain ⟨stackAligned, _⟩ := valid.aligned _ stackTaken
  obtain ⟨stackApart, stackNotCode⟩ := allocated.stack_apart dirHeld
  have startMapped : Agree start pageSize (mappedProgram state.mem frames)
      state.mem :=
    mappedProgram_agree valid startReserved.aligned
      (allocated.not_mem_tables startReserved.held different)
  constructor
  · intro offset below
    have written := SameOffWindows.agree windowsAligned codeAligned
      (notWindows _ ProgramFrames.code_taken).symm same (frames.code + offset)
      ⟨by omega, by omega⟩
    rw [written]
    by_cases copied : offset < size
    · rw [if_pos copied, transfer_of_inRange ⟨by omega, by omega⟩,
        Nat.add_sub_cancel_left]
      exact startMapped _ ⟨by omega, by omega⟩
    · rw [if_neg copied, transfer_of_not_inRange fun inside => copied (by
        simp only [InRange] at inside
        omega)]
      exact mappedProgram_agree valid codeAligned loaded.codeApart _
        ⟨by omega, by omega⟩
  · have apart := frames_apart stackAligned codeAligned stackNotCode
    exact (SameOffWindows.agree windowsAligned stackAligned
      (notWindows _ stackTaken).symm same).trans
        ((agree_transfer (by omega)).trans
          (mappedProgram_agree valid stackAligned stackApart))

end Frames

section Creation

variable {state middle loadedState after : KernelState}
variable {kernelDir windowTable slot : Nat} {kept : List Nat}
variable {module : ModuleInfo} {name : List UInt8}

/-- A process in the table does not change what the windows lead to. -/
theorem Windows.enter
    {windowFrames : Nat → Option Nat}
    (windows : Windows state kernelDir windowTable windowFrames)
    (slot : Nat)
    (pcb : Pcb)
    (pid : Nat) :
    Windows ((state.withProcess slot pcb).withNextPid pid) kernelDir
      windowTable windowFrames :=
  ⟨windows.paging, windows.slots, windows.mapped, windows.dirAligned,
    windows.tableApart⟩

/-- The state when the process has been entered into the table. -/
def KernelState.entered
    (state : KernelState) (slot : Nat) (pcb : Pcb) : KernelState :=
  (state.withProcess slot pcb).withNextPid (wrap32 (state.nextPid + 1))

/-- The frames of a process, in the order in which it asks for them. -/
def firstFrames (buddySys : Pmm.BuddySystem) : ProcessFrames where
  dir := handedOut buddySys 0
  code := handedOut buddySys 1
  stack := handedOut buddySys 2
  codeTable := handedOut buddySys 3
  stackTable := handedOut buddySys 4
  kernelStack := handedOut buddySys 5

/-- The steps of a successful creation. -/
structure CreationSteps
    (state middle loadedState after : KernelState)
    (kernelDir windowTable : Nat) (kept : List Nat) (module : ModuleInfo)
    (name : List UInt8) (slot : Nat) (frames : ProcessFrames) : Prop where
  created : Created state middle kernelDir windowTable frames.dir
  loaded : Loaded middle loadedState kernelDir windowTable module.start
    module.size kept frames.toProgramFrames
  looked : ∃ sys,
    Allocated loadedState.buddySys frames.kernelStack sys ∧
    Looked ((loadedState.withBuddySys sys).entered slot
        (frames.pcb loadedState.nextPid name)) after kernelDir windowTable
      fun _ => none

namespace CreationSteps

variable {frames : ProcessFrames}
variable (steps : CreationSteps state middle loadedState after kernelDir
  windowTable kept module name slot frames)
include steps

theorem sameProcesses : SameProcesses state loadedState := by
  have first := steps.created.memoryOnly
  have second := steps.loaded.memoryOnly
  rw [first] at second
  rw [second]
  exact ⟨rfl, rfl, rfl⟩

theorem takes : Takes state.buddySys after.buddySys frames.owned := by
  obtain ⟨sys, taken, looked⟩ := steps.looked
  have last : after.buddySys = sys := looked.buddySys
  have four := (Takes.refl.alloc steps.created.allocated).trans
    steps.loaded.takes
  rw [last]
  exact four.alloc taken

/-- The frames are the first six pages that the allocator hands out. -/
theorem allocations :
    frames = firstFrames state.buddySys ∧
      after.buddySys = remaining state.buddySys 6 := by
  obtain ⟨sys, taken, looked⟩ := steps.looked
  obtain ⟨_, _, _, allocated⟩ := steps.loaded.allocated
  have last : after.buddySys = sys := looked.buddySys
  simp only [firstFrames, handedOut, remaining, steps.created.allocated.run,
    allocated.code.run, allocated.stack.run, allocated.codeTable.run,
    allocated.stackTable.run, taken.run, last, and_self]

theorem entered
    (unused : findUnusedSlot state.processes = some slot) :
    Entered state after slot (frames.pcb state.nextPid name) := by
  obtain ⟨sys, taken, looked⟩ := steps.looked
  have same := steps.sameProcesses
  have entry : frames.pcb loadedState.nextPid name =
      frames.pcb state.nextPid name := by
    rw [same.nextPid]
  refine ⟨unused, rfl, rfl, ?_, ?_, ?_⟩
  · rw [looked.memoryOnly, ← entry, ← same.processes]
    rfl
  · rw [looked.memoryOnly]
    exact same.currentProcess
  · rw [looked.memoryOnly]
    exact congrArg (fun pid => wrap32 (pid + 1)) same.nextPid

theorem lookedMem :
    SameOffWindows windowTable after.mem loadedState.mem := by
  obtain ⟨sys, taken, looked⟩ := steps.looked
  exact looked.same

theorem creationKeeps
    (moduleReady : ModuleReady state kernelDir windowTable kept module)
    (dirKept : state.cr3 ∈ kept) :
    CreationKeeps state after kernelDir windowTable module.size kept := by
  have created := steps.created.creationKeeps moduleReady
  have middleCr3 : middle.cr3 = state.cr3 := created.cr3
  have apart : frames.dir ∉ kept := fun member =>
    steps.created.allocated.ne_of_held (moduleReady.keptHeld _ member).2.1 rfl
  have loaded := steps.loaded.creationKeeps created.ready apart
  have both := created.trans loaded dirKept
  obtain ⟨sys, taken, looked⟩ := steps.looked
  have lastSys : after.buddySys = sys := looked.buddySys
  have taking : Takes loadedState.buddySys after.buddySys
      [frames.kernelStack] := by
    rw [lastSys]
    exact Takes.refl.alloc taken
  refine both.trans (CreationKeeps.of_takes both.ready taking ?_ ?_
    looked.windows looked.same
    (fun frame member => (moduleReady.keptHeld frame member).1) ?_) dirKept
  · rw [looked.memoryOnly]
    rfl
  · rw [looked.memoryOnly]
    rfl
  · intro long table points
    exact ((moduleReady.behind long).table_apart
      ((both.behind_iff dirKept).mp points)).1.windowTable

theorem entries
    (ready : MemoryReady state kernelDir windowTable) :
    SpaceEntries after.mem frames.toProgramFrames
      (kernelHalf state.mem kernelDir) := by
  have created := steps.created
  obtain ⟨_, _, _, allocated⟩ := steps.loaded.allocated
  have windowsAligned := ready.windows.windowTable_aligned
  have notWindows := allocated.ne_of_held created.ready.windowTableHeld
  have valid := steps.loaded.valid
  refine (steps.loaded.entries.congr_others created.entries).congr ?_
  simp only [List.forall_mem_cons, List.not_mem_nil, false_imp_iff,
    implies_true, and_true]
  have same := steps.lookedMem
  refine ⟨?_, ?_, ?_⟩
  · exact SameOffWindows.agree windowsAligned valid.dirAligned
      (ready.clear created.allocated).windowTable same
  · exact SameOffWindows.agree windowsAligned
      (valid.aligned _ ProgramFrames.codeTable_taken).1
      (notWindows _ ProgramFrames.codeTable_taken).symm same
  · exact SameOffWindows.agree windowsAligned
      (valid.aligned _ ProgramFrames.stackTable_taken).1
      (notWindows _ ProgramFrames.stackTable_taken).symm same

/-- The code page and the stack page of the new process. -/
theorem pages
    (ready : MemoryReady state kernelDir windowTable)
    (reserved : Reserved state kernelDir windowTable module.start)
    (inPage : module.size ≤ pageSize) :
    (∀ offset < pageSize, after.mem (frames.code + offset) =
      if offset < module.size then state.mem (module.start + offset)
      else state.mem (frames.code + offset)) ∧
    Agree frames.stack pageSize after.mem state.mem := by
  have created := steps.created
  obtain ⟨_, _, _, allocated⟩ := steps.loaded.allocated
  have windowsAligned := ready.windows.windowTable_aligned
  obtain ⟨stillReserved, notDir⟩ := created.reserved reserved
  have notWindows := allocated.ne_of_held created.ready.windowTableHeld
  have dirHeld := created.allocated.held
  have notDirOf := allocated.ne_of_held dirHeld
  have stackTaken : frames.stack ∈ frames.taken := by
    simp [ProgramFrames.taken]
  have valid := steps.loaded.valid
  obtain ⟨code, stack⟩ := steps.loaded.pages created.ready dirHeld stillReserved
    notDir inPage
  have same := steps.lookedMem
  have codeAligned := (valid.aligned _ ProgramFrames.code_taken).1
  have stackAligned := (valid.aligned _ stackTaken).1
  constructor
  · intro offset below
    have last := SameOffWindows.agree windowsAligned codeAligned
      (notWindows _ ProgramFrames.code_taken).symm same (frames.code + offset)
      ⟨by omega, by omega⟩
    rw [last, code offset below]
    refine if_congr Iff.rfl ?_ ?_
    · exact created.keeps _ reserved.aligned reserved.windowTable notDir _
        ⟨by omega, by omega⟩
    · exact created.keeps _ codeAligned
        (notWindows _ ProgramFrames.code_taken).symm
        (notDirOf _ ProgramFrames.code_taken).symm _ ⟨by omega, by omega⟩
  · have notStackWindows := (notWindows _ stackTaken).symm
    exact ((SameOffWindows.agree windowsAligned stackAligned notStackWindows
      same).trans stack).trans
        (created.keeps _ stackAligned notStackWindows
          (notDirOf _ stackTaken).symm)

/-- What the steps of a successful creation add up to. -/
theorem processCreated
    (ready : MemoryReady state kernelDir windowTable)
    (moduleReady : ModuleReady state kernelDir windowTable kept module)
    (dirKept : state.cr3 ∈ kept)
    (unused : findUnusedSlot state.processes = some slot) :
    ProcessCreated state after kernelDir windowTable kept module name slot
      frames where
  toCreationKeeps := steps.creationKeeps moduleReady dirKept
  entered := steps.entered unused
  valid := steps.loaded.valid
  inRange := by
    obtain ⟨sys, taken, _⟩ := steps.looked
    exact taken.inRange
  dirNonzero := steps.created.allocated.nonzero
  takes := steps.takes
  entries := steps.entries ready
  code := fun inPage => (steps.pages ready moduleReady.reserved inPage).1
  stack := fun inPage => (steps.pages ready moduleReady.reserved inPage).2

end CreationSteps

/-- The directory of a process is given back. -/
theorem vmmDestroyUserSpace_nonzero
    {dir : Nat}
    (nonzero : dir ≠ 0) :
    vmmDestroyUserSpace dir state =
      some ((), state.withBuddySys
        (Pmm.pmmFreePages state.buddySys dir 0)) := by
  rw [vmmDestroyUserSpace_eq, if_neg nonzero]

section GiveUp

variable {dir : Nat} {taken : List Nat}

/-- A creation that has used windows and the allocator only. -/
theorem NotCreated.of_takes
    (ready : MemoryReady state kernelDir windowTable)
    (same : SameProcesses state after)
    (takes : Takes state.buddySys after.buddySys taken)
    (keeps : CreationKeeps state middle kernelDir windowTable module.size kept)
    (mem : after.mem = middle.mem)
    (cr3 : after.cr3 = middle.cr3)
    (modules : after.modules = middle.modules)
    (windows : Windows after kernelDir windowTable fun _ => none) :
    NotCreated state after kernelDir windowTable module.size kept where
  ready := ready.of_takes takes (cr3.trans keeps.cr3) windows
  cr3 := cr3.trans keeps.cr3
  modules := modules.trans keeps.modules
  keeps := by
    rw [mem]
    exact keeps.keeps
  keepsBehind := by
    rw [mem]
    exact keeps.keepsBehind
  same := same
  takes := ⟨taken, takes⟩

end GiveUp

/-- The ways in which a creation gives up, by the check that has failed. -/
inductive GivenUp
    (state next : KernelState) (kernelDir windowTable : Nat)
    (kept : List Nat) (name : List UInt8) : Prop
  | early
      (same : next = state)
      (why :
        state.modules.find? (fun module => module.name = name) = none ∨
          findUnusedSlot state.processes = none ∨
          state.buddySys.freePages = ∅)
  | load
      {middle last : KernelState} {module : ModuleInfo} {slot dir : Nat}
      (found :
        state.modules.find? (fun module => module.name = name) = some module)
      (unused : findUnusedSlot state.processes = some slot)
      (created : Created state middle kernelDir windowTable dir)
      (gaveUp : NotLoaded middle last kernelDir windowTable)
      (few : ¬ FreeAtLeast middle.buddySys 4)
      (returned :
        next = last.withBuddySys (Pmm.pmmFreePages last.buddySys dir 0))
  | kernelStack
      {middle last : KernelState} {module : ModuleInfo} {slot : Nat}
      {frames : ProgramFrames}
      (found :
        state.modules.find? (fun module => module.name = name) = some module)
      (unused : findUnusedSlot state.processes = some slot)
      (created : Created state middle kernelDir windowTable frames.dir)
      (loaded : Loaded middle last kernelDir windowTable module.start
        module.size kept frames)
      (none : last.buddySys.freePages = ∅)
      (returned :
        next = last.withBuddySys (Pmm.pmmFreePages last.buddySys frames.dir 0))

/-- Everything `process_create_from_module` can do, step by step. -/
theorem processCreateFromModule_outcome
    (ready : MemoryReady state kernelDir windowTable)
    (moduleReady : ∀ module,
      state.modules.find? (fun module => module.name = name) = some module →
      ModuleReady state kernelDir windowTable kept module) :
    Ensures (processCreateFromModule name) state fun pid next =>
      (∃ module slot frames middle loadedState,
        state.modules.find? (fun module => module.name = name) = some module ∧
        findUnusedSlot state.processes = some slot ∧
        pid = state.nextPid ∧
        CreationSteps state middle loadedState next kernelDir windowTable kept
          module name slot frames) ∨
      (pid = 0 ∧ GivenUp state next kernelDir windowTable kept name) := by
  rw [processCreateFromModule]
  refine Ensures.step rfl ?_
  split
  · rename_i noModule
    exact Ensures.pure (Or.inr ⟨rfl, .early rfl (Or.inl noModule)⟩)
  rename_i module found
  refine Ensures.step rfl ?_
  split
  · rename_i noSlot
    exact Ensures.pure (Or.inr ⟨rfl, .early rfl (Or.inr (Or.inl noSlot))⟩)
  rename_i slot unused
  have moduleOk := moduleReady module found
  obtain ⟨dir, middle, created, result⟩ := vmmCreateUserSpace_cases ready
  refine Ensures.step created ?_
  rcases result with ⟨rfl, rfl, none⟩ | built
  · rw [if_pos rfl]
    exact Ensures.pure (Or.inr ⟨rfl, .early rfl (Or.inr (Or.inr none))⟩)
  have nonzero := built.allocated.nonzero
  rw [if_neg nonzero]
  obtain ⟨reserved, notDir⟩ := built.reserved moduleOk.reserved
  refine (vmmLoadUserProgram_ensures kept built.ready
    (built.dirReserved ready) reserved notDir ?_ ?_).bind ?_
  · intro frame member
    obtain ⟨aligned, held, different⟩ := moduleOk.keptHeld frame member
    exact ⟨aligned, built.allocated.keeps held, different⟩
  · exact fun long => built.behind kept ready (moduleOk.behind long)
  rintro value last (⟨rfl, frames, rfl, loaded⟩ | ⟨rfl, gaveUp, few⟩)
  · rw [if_neg Nat.one_ne_zero]
    have allocator := loaded.takes.ready built.ready.allocator
    rcases allocator.alloc_cases with ⟨kernelStack, sys, taken, _⟩ | failed
    · refine Ensures.step (pmmAllocPages_eq taken.run) ?_
      rw [if_neg taken.nonzero]
      refine Ensures.step rfl ?_
      let owned : ProcessFrames := ⟨frames, kernelStack⟩
      have windows := (loaded.windows.withBuddySys sys).enter
        slot (owned.pcb last.nextPid name) (wrap32 (last.nextPid + 1))
      refine (windows.verifyPageTables built.allocated.aligned
        built.allocated.inRange).ensures.bind fun _ after looked => ?_
      have steps : CreationSteps state middle last after kernelDir
          windowTable kept module name slot owned :=
        ⟨built, loaded, sys, taken, looked⟩
      exact Ensures.pure (Or.inl ⟨module, slot, owned, middle, last, found,
        unused, steps.sameProcesses.nextPid, steps⟩)
    · refine Ensures.step (pmmAllocPages_eq failed) ?_
      rw [if_pos rfl]
      refine Ensures.step (vmmDestroyUserSpace_nonzero nonzero) ?_
      exact Ensures.pure (Or.inr ⟨rfl, .kernelStack found unused built loaded
        (allocator.freePages_of_refused failed) rfl⟩)
  · rw [if_pos rfl]
    refine Ensures.step (vmmDestroyUserSpace_nonzero nonzero) ?_
    exact Ensures.pure
      (Or.inr ⟨rfl, .load found unused built gaveUp few rfl⟩)

theorem Created.sameProcesses
    {dir : Nat}
    (created : Created state middle kernelDir windowTable dir) :
    SameProcesses state middle := by
  rw [created.memoryOnly]
  exact ⟨rfl, rfl, rfl⟩

/-- A creation that has given up has entered no process. -/
theorem GivenUp.notCreated
    (ready : MemoryReady state kernelDir windowTable)
    (moduleReady : ∀ module,
      state.modules.find? (fun module => module.name = name) = some module →
      ModuleReady state kernelDir windowTable kept module)
    (dirKept : state.cr3 ∈ kept)
    (gaveUp : GivenUp state after kernelDir windowTable kept name) :
    after = state ∨ ∃ module,
      state.modules.find? (fun module => module.name = name) = some module ∧
      NotCreated state after kernelDir windowTable module.size kept := by
  cases gaveUp with
  | early same _ =>
      exact Or.inl same
  | @load middle last module slot dir found unused created gaveUp few returned =>
      refine Or.inr ⟨module, found, ?_⟩
      subst returned
      have moduleOk := moduleReady module found
      have createdKeeps := created.creationKeeps moduleOk
      have gaveUpSame : SameProcesses middle last := by
        rw [gaveUp.memoryOnly]
        exact ⟨rfl, rfl, rfl⟩
      have same : SameProcesses state last :=
        IsTrans.trans _ _ _ created.sameProcesses gaveUpSame
      have both := createdKeeps.trans (CreationKeeps.of_takes created.ready
        gaveUp.takes (by rw [gaveUp.memoryOnly]; rfl)
        (by rw [gaveUp.memoryOnly]; rfl) gaveUp.windows gaveUp.same
        (fun frame member => (moduleOk.keptHeld frame member).1)
        fun long table points => ((moduleOk.behind long).table_apart
          ((createdKeeps.behind_iff dirKept).mp points)).1.windowTable) dirKept
      have none := ((Takes.refl.alloc created.allocated).trans
        gaveUp.takes).free
      exact NotCreated.of_takes ready
        ⟨same.processes, same.currentProcess, same.nextPid⟩ none both rfl rfl
        rfl (gaveUp.windows.withBuddySys _)
  | @kernelStack middle last module slot frames found unused created loaded none
      returned =>
      refine Or.inr ⟨module, found, ?_⟩
      subst returned
      have moduleOk := moduleReady module found
      have apart : frames.dir ∉ kept := fun member =>
        created.allocated.ne_of_held (moduleOk.keptHeld _ member).2.1 rfl
      have both := (created.creationKeeps moduleOk).trans
        (loaded.creationKeeps created.ready apart) dirKept
      have five := (Takes.refl.alloc created.allocated).trans loaded.takes
      have four := (five.perm (List.perm_append_singleton _ _)).free
      have loadedSame : SameProcesses middle last := by
        rw [loaded.memoryOnly]
        exact ⟨rfl, rfl, rfl⟩
      have same : SameProcesses state last :=
        IsTrans.trans _ _ _ created.sameProcesses loadedSame
      exact NotCreated.of_takes ready
        ⟨same.processes, same.currentProcess, same.nextPid⟩ four both rfl rfl
        rfl (both.ready.windows.withBuddySys _)

/-- Everything `process_create_from_module` can do with a module. -/
theorem processCreateFromModule_ensures
    (ready : MemoryReady state kernelDir windowTable)
    (moduleReady : ∀ module,
      state.modules.find? (fun module => module.name = name) = some module →
      ModuleReady state kernelDir windowTable kept module)
    (dirKept : state.cr3 ∈ kept) :
    Ensures (processCreateFromModule name) state fun pid next =>
      (∃ module slot frames,
        state.modules.find? (fun module => module.name = name) = some module ∧
        pid = state.nextPid ∧
        ProcessCreated state next kernelDir windowTable kept module name slot
          frames) ∨
      (pid = 0 ∧ (next = state ∨ ∃ module,
        state.modules.find? (fun module => module.name = name) = some module ∧
        NotCreated state next kernelDir windowTable module.size kept)) := by
  refine (processCreateFromModule_outcome ready moduleReady).mono ?_
  rintro pid next (⟨module, slot, frames, middle, last, found, unused, isPid,
    steps⟩ | ⟨zero, gaveUp⟩)
  · exact Or.inl ⟨module, slot, frames, found, isPid,
      steps.processCreated ready (moduleReady module found) dirKept unused⟩
  · exact Or.inr ⟨zero, gaveUp.notCreated ready moduleReady dirKept⟩

/-- A creation whose program has been loaded enters the process. -/
theorem processCreateFromModule_enters
    {frames : ProcessFrames} {sys : Pmm.BuddySystem}
    (found :
      state.modules.find? (fun module => module.name = name) = some module)
    (unused : findUnusedSlot state.processes = some slot)
    (createdRun : vmmCreateUserSpace state = some (frames.dir, middle))
    (created : Allocated state.buddySys frames.dir middle.buddySys)
    (loadedRun : vmmLoadUserProgram frames.dir module.start module.size middle =
      some (1, loadedState))
    (windows : Windows loadedState kernelDir windowTable fun _ => none)
    (taken : Allocated loadedState.buddySys frames.kernelStack sys) :
    Returns (processCreateFromModule name) state fun pid next =>
      pid = loadedState.nextPid ∧
      Looked ((loadedState.withBuddySys sys).entered slot
        (frames.pcb loadedState.nextPid name)) next kernelDir windowTable
          fun _ => none := by
  have lookup : loaderFindModule name state = some (some module, state) := by
    rw [loaderFindModule, found]
  have current : (get : Kernel KernelState) state = some (state, state) := rfl
  rw [processCreateFromModule]
  refine Returns.step lookup (Returns.step current ?_)
  rw [unused]
  refine Returns.step createdRun ?_
  rw [if_neg created.nonzero]
  refine Returns.step loadedRun ?_
  rw [if_neg Nat.one_ne_zero]
  refine Returns.step (pmmAllocPages_eq taken.run) ?_
  rw [if_neg taken.nonzero]
  refine Returns.step rfl ?_
  have entered := (windows.withBuddySys sys).enter slot
    (frames.pcb loadedState.nextPid name) (wrap32 (loadedState.nextPid + 1))
  exact (entered.verifyPageTables created.aligned created.inRange).bind
    fun _ last looked => Returns.pure ⟨rfl, looked⟩

/-- With six free pages a module of at most a page becomes a process. -/
theorem processCreateFromModule_returns
    (ready : MemoryReady state kernelDir windowTable)
    (found :
      state.modules.find? (fun module => module.name = name) = some module)
    (unused : findUnusedSlot state.processes = some slot)
    (reserved : Reserved state kernelDir windowTable module.start)
    (inPage : module.size ≤ pageSize)
    {count : Nat}
    (free : FreeAtLeast state.buddySys (count + 6)) :
    Returns (processCreateFromModule name) state fun pid next =>
      pid = state.nextPid ∧ FreeAtLeast next.buddySys count := by
  obtain ⟨frames, middle, loadedState, createdRun, loadedRun, built, loaded,
    loadedFree⟩ := userSpace_loaded ready reserved inPage
      (show FreeAtLeast state.buddySys (count + 1 + 5) from free)
  obtain ⟨kernelStack, sys, taken, _, lastFree⟩ :=
    loadedFree.take (loaded.takes.ready built.ready.allocator)
  have same : loadedState.nextPid = state.nextPid := by
    rw [loaded.memoryOnly, built.memoryOnly]
    rfl
  let owned : ProcessFrames := ⟨frames, kernelStack⟩
  refine (@processCreateFromModule_enters _ _ _ _ _ _ _ _ owned _ found unused
    createdRun built.allocated loadedRun loaded.windows taken).mono ?_
  rintro pid last ⟨rfl, looked⟩
  have lastSys : last.buddySys = sys := looked.buddySys
  rw [← lastSys] at lastFree
  exact ⟨same, lastFree⟩

/-- What was in use stays in use. -/
theorem ProcessCreated.reserved
    {frames : ProcessFrames} {frame : Nat}
    (ready : MemoryReady state kernelDir windowTable)
    (created : ProcessCreated state after kernelDir windowTable kept module name
      slot frames)
    (reserved : Reserved state kernelDir windowTable frame) :
    Reserved after kernelDir windowTable frame := by
  refine ⟨?_, reserved.inRange,
    created.takes.keeps ready.allocator reserved.held⟩
  rw [created.cr3]
  exact reserved.toClear

/-- A short module and six free pages: what the new process is like. -/
theorem processCreateFromModule_created
    (ready : MemoryReady state kernelDir windowTable)
    (found :
      state.modules.find? (fun module => module.name = name) = some module)
    (unused : findUnusedSlot state.processes = some slot)
    (reserved : Reserved state kernelDir windowTable module.start)
    (inPage : module.size ≤ pageSize)
    (pid : state.nextPid ≠ 0)
    {count : Nat}
    (free : FreeAtLeast state.buddySys (count + 6)) :
    ∃ next frames,
      processCreateFromModule name state = some (state.nextPid, next) ∧
      ProcessCreated state next kernelDir windowTable [state.cr3] module name
        slot frames ∧
      FreeAtLeast next.buddySys count := by
  obtain ⟨_, next, run, rfl, left⟩ :=
    processCreateFromModule_returns ready found unused reserved inPage free
  have moduleReady : ∀ other,
      state.modules.find? (fun module => module.name = name) = some other →
      ModuleReady state kernelDir windowTable [state.cr3] other := by
    intro other foundOther
    obtain rfl := Option.some.inj (found.symm.trans foundOther)
    refine ⟨reserved, ?_, fun long => absurd long (by omega)⟩
    intro frame member
    obtain rfl := List.mem_singleton.mp member
    exact ⟨ready.windows.dirAligned, ready.dirHeld, reserved.dir.symm⟩
  rcases processCreateFromModule_ensures ready moduleReady (by simp) _ _ run
    with ⟨other, otherSlot, frames, foundOther, _, created⟩ | ⟨zero, _⟩
  · obtain rfl := Option.some.inj (found.symm.trans foundOther)
    obtain rfl := Option.some.inj
      (unused.symm.trans created.entered.wasUnused)
    exact ⟨next, frames, run, created, left⟩
  · exact absurd zero pid

end Creation

/-! ## A first process -/

/-- The kernel after boot, with a module of 16 bytes. -/
def demoModule : ModuleInfo :=
  ⟨[0x61], 0x200000, 16⟩

def demoKernel : KernelState :=
  bootKernel (fun _ => 0) 0x110000 [demoModule]

theorem demoKernel_created :
    ∃ next frames,
      processCreateFromModule [0x61] demoKernel = some (1, next) ∧
      ProcessCreated demoKernel next 0x110000 0x111000 [0x110000] demoModule
        [0x61] 0 frames ∧
      FreeAtLeast next.buddySys (4084 + 6) := by
  have reserved := bootReserved [demoModule] 0x200000 (by omega) (by omega)
    (by omega)
  have enough : FreeAtLeast demoKernel.buddySys (4084 + 6 + 6) :=
    bootFree [demoModule]
  exact processCreateFromModule_created (bootReady [demoModule]) rfl rfl
    reserved (by decide) Nat.one_ne_zero enough

end MatrixOS
