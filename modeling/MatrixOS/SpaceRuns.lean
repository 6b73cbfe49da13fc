import MatrixOS.ProcessCycles

namespace MatrixOS

open ByteMemory Paging StateOption

/-!
# Who owns the page frames

Processes are created, started and ended, and the rest of the kernel takes
blocks from the page allocator and gives them back.  A process that has not
ended owns six page frames.  Those that `process_exit_current` does not give
back, and those that a failed creation loses, belong to nobody any more.
-/

/-! ## Calls -/

/-- The kernel, and the blocks that its other parts have taken. -/
structure SpaceRun where
  state : KernelState
  others : List Pmm.PageBlock

inductive SpaceCall where
  | process (call : ProcessCall)
  | allocate (order : Nat)
  | release (block : Pmm.PageBlock)

def SpaceCall.perform (run : SpaceRun) : SpaceCall → Option SpaceRun
  | process call =>
      (call.perform run.state).map fun state => ⟨state, run.others⟩
  | allocate order =>
      let result := Pmm.pmmAllocPages run.state.buddySys order
      some ⟨run.state.withBuddySys result.2,
        if result.1 = 0 then run.others
        else ⟨result.1, order⟩ :: run.others⟩
  | release block =>
      some ⟨run.state.withBuddySys
          (Pmm.pmmFreePages run.state.buddySys block.addr block.order),
        run.others.erase block⟩

/-- The process is READY or RUNNING. -/
def Pcb.Alive (pcb : Pcb) : Prop :=
  pcb.state = .ready ∨ pcb.state = .running

instance (pcb : Pcb) : Decidable pcb.Alive :=
  inferInstanceAs (Decidable (_ ∨ _))

/--
The directory in `cr3` is the one of the loader or that of a process that has
not ended.
-/
def DirectoryOwned (bootDir : Nat) (state : KernelState) : Prop :=
  state.cr3 = bootDir ∨ ∃ slot < maxProcesses,
    (state.processes slot).Alive ∧
      (state.processes slot).pageDirectory = state.cr3

/--
The other parts of the kernel give back what they have taken, and no process
is created after the directory in `cr3` has been given back.
-/
def SpaceCall.Permitted (bootDir : Nat) (run : SpaceRun) : SpaceCall → Prop
  | process (.create _) => DirectoryOwned bootDir run.state
  | process _ => True
  | allocate _ => True
  | release block => block ∈ run.others

/-- The states of the runs whose calls are permitted. -/
inductive SpaceReachable
    (permitted : SpaceRun → SpaceCall → Prop) (initial : KernelState) :
    SpaceRun → Prop
  | init : SpaceReachable permitted initial ⟨initial, []⟩
  | call {run next : SpaceRun} (request : SpaceCall)
      (reached : SpaceReachable permitted initial run)
      (allowed : permitted run request)
      (performed : request.perform run = some next) :
      SpaceReachable permitted initial next

/-! ## The kernel before the first process -/

/-- A frame that neither the allocator nor a module has. -/
structure Outside
    (pool : Set Nat) (modules : List ModuleInfo) (frame : Nat) : Prop where
  inRange : frame + 2 ^ 12 ≤ 2 ^ 32
  pool : frame / pageSize ∉ pool
  modules : ∀ module ∈ modules, frame ≠ module.start

/--
The tables of the loader are in `cr3`, and neither they nor the modules are in
the region of the allocator, which has handed out the blocks `reserved`.
-/
structure SpaceInitial
    (state : KernelState) (bootDir windowTable : Nat)
    (reserved : List Pmm.PageBlock) (pool : Set Nat) : Prop where
  table : ProcessInitial state
  cr3 : state.cr3 = bootDir
  windows : Windows state bootDir windowTable fun _ => none
  allocator : Pmm.Invariant state.buddySys reserved pool
  bootDirOutside : Outside pool state.modules bootDir
  windowTableOutside : Outside pool state.modules windowTable
  modules : ∀ module ∈ state.modules, 2 ^ 12 ∣ module.start ∧
    module.start + 2 ^ 12 ≤ 2 ^ 32 ∧ module.start / pageSize ∉ pool
  behind : (∃ module ∈ state.modules, 2 * pageSize < module.size) →
    BehindWindows state.mem bootDir fun frame =>
      2 ^ 12 ∣ frame ∧ Outside pool state.modules frame ∧ frame ≠ bootDir ∧
        frame ≠ windowTable

/-- The same kernel after blocks have been taken. -/
theorem SpaceInitial.withBuddySys
    {state : KernelState} {bootDir windowTable : Nat}
    {reserved others : List Pmm.PageBlock} {pool : Set Nat}
    {sys : Pmm.BuddySystem}
    (start : SpaceInitial state bootDir windowTable reserved pool)
    (allocator : Pmm.Invariant sys others pool) :
    SpaceInitial (state.withBuddySys sys) bootDir windowTable others pool where
  table := ⟨start.table.processes, start.table.currentProcess,
    start.table.nextPid⟩
  cr3 := start.cr3
  windows := start.windows.withBuddySys sys
  allocator := allocator
  bootDirOutside := start.bootDirOutside
  windowTableOutside := start.windowTableOutside
  modules := start.modules
  behind := start.behind

/-! ## Owned frames -/

/-- The frames of the processes that have not ended. -/
def ownedFrames (processes : Nat → Pcb) (frames : Nat → ProcessFrames) :
    List Nat :=
  (List.range maxProcesses).flatMap fun slot =>
    if (processes slot).Alive then (frames slot).owned else []

/-- One entry of a list of lists comes first. -/
theorem flatMap_perm_cons_erase
    {α β : Type*} [DecidableEq α]
    {entries : List α} {entry : α}
    (member : entry ∈ entries)
    (pieces : α → List β) :
    (entries.flatMap pieces).Perm
      (pieces entry ++ (entries.erase entry).flatMap pieces) :=
  (List.perm_cons_erase member).flatMap_right pieces

section Owned

variable {processes changed : Nat → Pcb} {frames others : Nat → ProcessFrames}
variable {slot : Nat}

theorem mem_ownedFrames {frame : Nat} :
    frame ∈ ownedFrames processes frames ↔ ∃ slot < maxProcesses,
      (processes slot).Alive ∧ frame ∈ (frames slot).owned := by
  simp only [ownedFrames, List.mem_flatMap, List.mem_range]
  refine exists_congr fun slot => and_congr_right fun _ => ?_
  split <;> simp_all

/-- The frames of one slot, and those of the other slots. -/
theorem ownedFrames_split
    (inTable : slot < maxProcesses)
    (same : ∀ other, other ≠ slot →
      changed other = processes other ∧ others other = frames other) :
    ∃ rest,
      (ownedFrames processes frames).Perm
        ((if (processes slot).Alive then (frames slot).owned else []) ++ rest) ∧
      (ownedFrames changed others).Perm
        ((if (changed slot).Alive then (others slot).owned else []) ++
          rest) := by
  have listed := List.mem_range.mpr inTable
  refine ⟨_, flatMap_perm_cons_erase listed _, ?_⟩
  refine (flatMap_perm_cons_erase listed _).trans (List.Perm.of_eq ?_)
  refine congrArg _ (List.flatMap_congr fun other member => ?_)
  have different := (List.nodup_range.mem_erase_iff.mp member).1
  obtain ⟨sameProcess, sameFrames⟩ := same other different
  rw [sameProcess, sameFrames]

end Owned

section Changes

variable {processes changed : Nat → Pcb} {frames : Nat → ProcessFrames}
variable {slot : Nat}

theorem ownedFrames_congr
    (same : ∀ slot, (changed slot).Alive ↔ (processes slot).Alive) :
    ownedFrames changed frames = ownedFrames processes frames := by
  simp only [ownedFrames, same]

/-- A slot that was not alive gets frames. -/
theorem ownedFrames_enter
    (inTable : slot < maxProcesses)
    (unused : ¬ (processes slot).Alive)
    {pcb : Pcb}
    (alive : pcb.Alive)
    (owned : ProcessFrames) :
    (ownedFrames (Function.update processes slot pcb)
        (Function.update frames slot owned)).Perm
      (owned.owned ++ ownedFrames processes frames) := by
  obtain ⟨rest, before, after⟩ :=
    @ownedFrames_split processes (Function.update processes slot pcb) frames
      (Function.update frames slot owned) slot inTable
      fun other different => by simp [different]
  simp only [unused, Function.update_self, alive, ↓reduceIte, List.nil_append]
    at before after
  exact after.trans (before.symm.append_left _)

/-- A slot that was alive loses its frames. -/
theorem ownedFrames_leave
    (inTable : slot < maxProcesses)
    (alive : (processes slot).Alive)
    (ended : ¬ (changed slot).Alive)
    (same : ∀ other, other ≠ slot → changed other = processes other) :
    (ownedFrames processes frames).Perm
      ((frames slot).owned ++ ownedFrames changed frames) := by
  obtain ⟨rest, before, after⟩ :=
    @ownedFrames_split processes changed frames frames slot inTable
      fun other different => ⟨same other different, rfl⟩
  simp only [alive, ended, ↓reduceIte, List.nil_append] at before after
  exact before.trans (after.symm.append_left _)

end Changes

/-! ## The invariant -/

/-- What is in memory and in the table for a process that has not ended. -/
structure ProcessSpace
    (mem : Memory) (bootDir : Nat) (pcb : Pcb) (frames : ProcessFrames) :
    Prop where
  pageDirectory : pcb.pageDirectory = frames.dir
  kernelStack : pcb.kernelStack = wrap32 (frames.kernelStack + pageSize)
  dirNonzero : frames.dir ≠ 0
  valid : frames.toProgramFrames.Valid
  inRange : frames.kernelStack + 2 ^ 12 ≤ 2 ^ 32
  entries : SpaceEntries mem frames.toProgramFrames (kernelHalf mem bootDir)

/--
The invariant of the runs: `frames` are the frames of the processes that have
not ended, `lost` those that belong to nobody.
-/
structure SpaceInvariant
    (initial : KernelState) (bootDir windowTable : Nat)
    (reserved : List Pmm.PageBlock) (pool : Set Nat) (run : SpaceRun)
    (frames : Nat → ProcessFrames) (lost : List Nat) : Prop where
  windows : Windows run.state bootDir windowTable fun _ => none
  allocator : Pmm.Invariant run.state.buddySys
    ((ownedFrames run.state.processes frames ++ lost).map frameBlock ++
      (run.others ++ reserved)) pool
  modules : run.state.modules = initial.modules
  bootKept : Agree bootDir pageSize run.state.mem initial.mem
  behindKept : (∃ module ∈ initial.modules, 2 * pageSize < module.size) →
    ∀ table, PointsTo initial.mem bootDir 769 table →
      Agree table pageSize run.state.mem initial.mem
  spaces : ∀ slot < maxProcesses, (run.state.processes slot).Alive →
    ProcessSpace run.state.mem bootDir (run.state.processes slot) (frames slot)
  current : ∀ slot, run.state.currentProcess = some slot →
    slot < maxProcesses ∧ (run.state.processes slot).state = .running
  pids : PidsRight run.state

theorem not_alive_clear : ¬ Pcb.clear.Alive := by
  decide

section Initial

variable {initial : KernelState} {bootDir windowTable : Nat}
variable {reserved : List Pmm.PageBlock} {pool : Set Nat}

theorem SpaceInitial.invariant
    (start : SpaceInitial initial bootDir windowTable reserved pool)
    (frames : Nat → ProcessFrames) :
    SpaceInvariant initial bootDir windowTable reserved pool ⟨initial, []⟩
      frames [] where
  windows := start.windows
  allocator := by
    have none : ownedFrames initial.processes frames = [] := by
      refine List.eq_nil_iff_forall_not_mem.mpr fun frame member => ?_
      obtain ⟨slot, _, alive, _⟩ := mem_ownedFrames.mp member
      rw [start.table.processes] at alive
      exact not_alive_clear alive
    rw [none]
    exact start.allocator
  modules := rfl
  bootKept := Agree.refl _
  behindKept := fun _ _ _ => Agree.refl _
  spaces := by
    intro slot _ alive
    rw [start.table.processes] at alive
    exact absurd alive not_alive_clear
  current := by
    intro slot current
    rw [start.table.currentProcess] at current
    cases current
  pids := pidsRight_initial start.table

end Initial

/-! ## What the invariant says about frames -/

namespace SpaceInvariant

variable {initial : KernelState} {bootDir windowTable : Nat}
variable {reserved : List Pmm.PageBlock} {pool : Set Nat} {run : SpaceRun}
variable {frames : Nat → ProcessFrames} {lost : List Nat} {frame : Nat}

theorem held_outside
    (invariant : SpaceInvariant initial bootDir windowTable reserved pool run
      frames lost)
    (notInPool : frame / pageSize ∉ pool) :
    Held run.state.buddySys frame :=
  fun free => notInPool (invariant.allocator.mem_freePages_iff.mp free).1

/-- Owned frames are aligned pages of the pool that are not free. -/
theorem owned_frame
    (invariant : SpaceInvariant initial bootDir windowTable reserved pool run
      frames lost)
    (member : frame ∈ ownedFrames run.state.processes frames) :
    2 ^ 12 ∣ frame ∧ frame / pageSize ∈ pool ∧
      Held run.state.buddySys frame := by
  have allocator := invariant.allocator
  have block : frameBlock frame ∈
      (ownedFrames run.state.processes frames ++ lost).map frameBlock ++
        (run.others ++ reserved) :=
    List.mem_append_left _
      (List.mem_map_of_mem (List.mem_append_left _ member))
  have listed := List.mem_append_left run.state.buddySys.freeBlocks block
  have inBlock : frame / pageSize ∈ (frameBlock frame).pages :=
    Takes.mem_frameBlock.mpr rfl
  refine ⟨Pmm.PageBlock.page_aligned (allocator.aligned _ listed),
    allocator.tiles.extent_subset listed inBlock, fun free => ?_⟩
  exact (allocator.mem_freePages_iff.mp free).2 _ block inBlock

theorem dir_owned
    {slot : Nat}
    (inTable : slot < maxProcesses)
    (alive : (run.state.processes slot).Alive) :
    (frames slot).dir ∈ ownedFrames run.state.processes frames :=
  mem_ownedFrames.mpr ⟨slot, inTable, alive, by simp [ProcessFrames.owned]⟩

/-- The directory in `cr3` is the loader's, or it is owned. -/
theorem cr3_cases
    (invariant : SpaceInvariant initial bootDir windowTable reserved pool run
      frames lost)
    (owned : DirectoryOwned bootDir run.state) :
    run.state.cr3 = bootDir ∨
      run.state.cr3 ∈ ownedFrames run.state.processes frames := by
  refine owned.imp_right ?_
  rintro ⟨slot, inTable, alive, same⟩
  rw [← same, (invariant.spaces slot inTable alive).pageDirectory]
  exact dir_owned inTable alive

theorem memoryReady
    (start : SpaceInitial initial bootDir windowTable reserved pool)
    (invariant : SpaceInvariant initial bootDir windowTable reserved pool run
      frames lost)
    (owned : DirectoryOwned bootDir run.state) :
    MemoryReady run.state bootDir windowTable where
  windows := invariant.windows
  allocator := ⟨_, pool, invariant.allocator⟩
  dirHeld := by
    rcases invariant.cr3_cases owned with same | member
    · rw [same]
      exact invariant.held_outside start.bootDirOutside.pool
    · exact (invariant.owned_frame member).2.2
  kernelDirHeld := invariant.held_outside start.bootDirOutside.pool
  windowTableHeld := invariant.held_outside start.windowTableOutside.pool

theorem bootEntry
    (invariant : SpaceInvariant initial bootDir windowTable reserved pool run
      frames lost)
    {index : Nat}
    (bound : index < 1024) :
    entryAt run.state.mem bootDir index = entryAt initial.mem bootDir index :=
  load_congr (Windows.entry_agree bound invariant.bootKept)

/-- The kernel's entries of a process are those of the loader. -/
theorem kernelEntry
    (invariant : SpaceInvariant initial bootDir windowTable reserved pool run
      frames lost)
    {slot index : Nat}
    (inTable : slot < maxProcesses)
    (alive : (run.state.processes slot).Alive)
    (upper : 768 ≤ index)
    (bound : index < 1024)
    (notStack : index ≠ 0x3FE) :
    entryAt run.state.mem (frames slot).dir index =
      entryAt initial.mem bootDir index := by
  have entry :=
    (invariant.spaces slot inTable alive).entries.dir index bound
  rw [if_neg notStack, if_neg (by omega), kernelHalf, if_pos upper] at entry
  exact entry.trans (invariant.bootEntry bound)

theorem cr3Entry
    (invariant : SpaceInvariant initial bootDir windowTable reserved pool run
      frames lost)
    (owned : DirectoryOwned bootDir run.state)
    {index : Nat}
    (upper : 768 ≤ index)
    (bound : index < 1024)
    (notStack : index ≠ 0x3FE) :
    entryAt run.state.mem run.state.cr3 index =
      entryAt initial.mem bootDir index := by
  rcases owned with same | ⟨slot, inTable, alive, same⟩
  · rw [same]
    exact invariant.bootEntry bound
  · rw [← same, (invariant.spaces slot inTable alive).pageDirectory]
    exact invariant.kernelEntry inTable alive upper bound notStack

end SpaceInvariant

/-! ## What a creation has to keep -/

/-- The frames whose contents a creation has to keep. -/
def keptFrames
    (bootDir : Nat) (run : SpaceRun) (frames : Nat → ProcessFrames)
    (tables : List Nat) : List Nat :=
  run.state.cr3 :: bootDir ::
    (ownedFrames run.state.processes frames ++ tables)

/-- The table behind the windows, unless the image of a module reaches it. -/
structure BehindTables
    (initial : KernelState) (bootDir windowTable : Nat) (pool : Set Nat)
    (size : Nat) (tables : List Nat) : Prop where
  apart : ∀ table ∈ tables, 2 ^ 12 ∣ table ∧
    Outside pool initial.modules table ∧ table ≠ bootDir ∧ table ≠ windowTable
  long : 2 * pageSize < size → tables = []
  short : ¬ 2 * pageSize < size →
    (∃ module ∈ initial.modules, 2 * pageSize < module.size) →
    ∀ table, PointsTo initial.mem bootDir 769 table → table ∈ tables

section Kept

variable {initial : KernelState} {bootDir windowTable : Nat}
variable {reserved : List Pmm.PageBlock} {pool : Set Nat} {run : SpaceRun}
variable {frames : Nat → ProcessFrames} {lost tables : List Nat}
variable {module : ModuleInfo}

theorem SpaceInitial.behindTables
    (start : SpaceInitial initial bootDir windowTable reserved pool)
    (size : Nat) :
    ∃ tables, BehindTables initial bootDir windowTable pool size tables := by
  by_cases long : 2 * pageSize < size
  · exact ⟨[], by simp, fun _ => rfl, fun short => absurd long short⟩
  by_cases some : ∃ module ∈ initial.modules, 2 * pageSize < module.size
  · by_cases leads : ∃ table, PointsTo initial.mem bootDir 769 table
    · obtain ⟨table, points⟩ := leads
      refine ⟨[table], ?_, fun isLong => absurd isLong long, ?_⟩
      · intro other member
        obtain rfl := List.mem_singleton.mp member
        exact (start.behind some).table_apart points
      · intro _ _ other otherPoints
        exact List.mem_singleton.mpr (otherPoints.2.symm.trans points.2)
    · exact ⟨[], by simp, fun _ => rfl, fun _ _ table points =>
        absurd ⟨table, points⟩ leads⟩
  · exact ⟨[], by simp, fun _ => rfl, fun _ isSome => absurd isSome some⟩

/-- A frame outside the pool is none of the frames of the processes. -/
theorem SpaceInvariant.ne_cr3
    (invariant : SpaceInvariant initial bootDir windowTable reserved pool run
      frames lost)
    (owned : DirectoryOwned bootDir run.state)
    {frame : Nat}
    (notInPool : frame / pageSize ∉ pool)
    (notBoot : frame ≠ bootDir) :
    frame ≠ run.state.cr3 := by
  rintro rfl
  rcases invariant.cr3_cases owned with same | member
  · exact notBoot same
  · exact notInPool (invariant.owned_frame member).2.1

theorem SpaceInvariant.kept_frame
    (start : SpaceInitial initial bootDir windowTable reserved pool)
    (invariant : SpaceInvariant initial bootDir windowTable reserved pool run
      frames lost)
    (owned : DirectoryOwned bootDir run.state)
    (behind : BehindTables initial bootDir windowTable pool module.size tables)
    (listed : module ∈ run.state.modules) :
    ∀ frame ∈ keptFrames bootDir run frames tables,
      2 ^ 12 ∣ frame ∧ Held run.state.buddySys frame ∧
        frame ≠ module.start := by
  rw [invariant.modules] at listed
  have outside := (start.modules module listed).2.2
  have ofOwned : ∀ frame ∈ ownedFrames run.state.processes frames,
      2 ^ 12 ∣ frame ∧ Held run.state.buddySys frame ∧
        frame ≠ module.start := by
    intro frame member
    obtain ⟨aligned, inPool, held⟩ := invariant.owned_frame member
    refine ⟨aligned, held, ?_⟩
    rintro rfl
    exact outside inPool
  have ofBoot : 2 ^ 12 ∣ bootDir ∧ Held run.state.buddySys bootDir ∧
      bootDir ≠ module.start :=
    ⟨invariant.windows.kernelDir_aligned,
      invariant.held_outside start.bootDirOutside.pool,
      start.bootDirOutside.modules module listed⟩
  intro frame member
  rcases List.mem_cons.mp member with rfl | member
  · rcases invariant.cr3_cases owned with same | isOwned
    · rw [same]
      exact ofBoot
    · exact ofOwned _ isOwned
  rcases List.mem_cons.mp member with rfl | member
  · exact ofBoot
  rcases List.mem_append.mp member with isOwned | isTable
  · exact ofOwned _ isOwned
  · obtain ⟨aligned, tableOutside, _⟩ := behind.apart frame isTable
    exact ⟨aligned, invariant.held_outside tableOutside.pool,
      tableOutside.modules module listed⟩

theorem SpaceInvariant.moduleReady
    (start : SpaceInitial initial bootDir windowTable reserved pool)
    (invariant : SpaceInvariant initial bootDir windowTable reserved pool run
      frames lost)
    (owned : DirectoryOwned bootDir run.state)
    (behind : BehindTables initial bootDir windowTable pool module.size tables)
    (listed : module ∈ run.state.modules) :
    ModuleReady run.state bootDir windowTable
      (keptFrames bootDir run frames tables) module := by
  have inInitial := listed
  rw [invariant.modules] at inInitial
  obtain ⟨aligned, inRange, outside⟩ := start.modules module inInitial
  have notBoot := start.bootDirOutside.modules module inInitial
  have notWindows := start.windowTableOutside.modules module inInitial
  refine ⟨⟨⟨aligned, ?_, notBoot.symm, notWindows.symm⟩, inRange,
    invariant.held_outside outside⟩,
    invariant.kept_frame start owned behind listed, fun long => ?_⟩
  · exact invariant.ne_cr3 owned outside notBoot.symm
  have some : ∃ module ∈ initial.modules, 2 * pageSize < module.size :=
    ⟨module, inInitial, long⟩
  refine (start.behind some).transport
    (invariant.cr3Entry owned (by omega) (by omega) (by omega)) ?_ ?_
  · intro table _ points
    exact invariant.behindKept some table points
  · rintro frame ⟨frameAligned, frameOutside, frameNotBoot, frameNotWindows⟩
    have notCr3 := invariant.ne_cr3 owned frameOutside.pool frameNotBoot
    refine ⟨⟨⟨frameAligned, notCr3, frameNotBoot, frameNotWindows⟩,
      frameOutside.inRange, invariant.held_outside frameOutside.pool⟩,
      frameOutside.modules module inInitial, ?_⟩
    rw [keptFrames, behind.long long, List.append_nil]
    simp only [List.mem_cons, not_or]
    exact ⟨notCr3, frameNotBoot, fun isOwned =>
      frameOutside.pool (invariant.owned_frame isOwned).2.1⟩

/-- A process keeps its space with its three tables and the loader's. -/
theorem ProcessSpace.congr
    {mem changed : Memory} {pcb : Pcb} {owned : ProcessFrames}
    (space : ProcessSpace mem bootDir pcb owned)
    (tablesKept : ∀ table ∈ owned.tables, Agree table pageSize changed mem)
    (bootKept : Agree bootDir pageSize changed mem) :
    ProcessSpace changed bootDir pcb owned where
  pageDirectory := space.pageDirectory
  kernelStack := space.kernelStack
  dirNonzero := space.dirNonzero
  valid := space.valid
  inRange := space.inRange
  entries := by
    refine (space.entries.congr tablesKept).congr_others fun index bound => ?_
    rw [kernelHalf, kernelHalf,
      show entryAt changed bootDir index = entryAt mem bootDir index from
        load_congr (Windows.entry_agree bound bootKept)]

theorem ProcessFrames.tables_owned
    {owned : ProcessFrames} {table : Nat}
    (member : table ∈ owned.tables) :
    table ∈ owned.owned := by
  simp only [ProgramFrames.tables, List.mem_cons, List.not_mem_nil,
    or_false] at member
  simp only [ProcessFrames.owned, List.mem_cons, List.not_mem_nil, or_false]
  tauto

/-- Whether it succeeds or not, a creation keeps what belongs to others. -/
theorem SpaceInvariant.kept_memory
    {state : KernelState} {size : Nat}
    (start : SpaceInitial initial bootDir windowTable reserved pool)
    (invariant : SpaceInvariant initial bootDir windowTable reserved pool run
      frames lost)
    (owned : DirectoryOwned bootDir run.state)
    (behind : BehindTables initial bootDir windowTable pool size tables)
    (keeps : CreationKeeps run.state state bootDir windowTable size
      (keptFrames bootDir run frames tables)) :
    Agree bootDir pageSize state.mem initial.mem ∧
    ((∃ module ∈ initial.modules, 2 * pageSize < module.size) →
      ∀ table, PointsTo initial.mem bootDir 769 table →
        Agree table pageSize state.mem initial.mem) ∧
    ∀ slot < maxProcesses, (run.state.processes slot).Alive →
      ProcessSpace state.mem bootDir (run.state.processes slot)
        (frames slot) := by
  have bootAgree : Agree bootDir pageSize state.mem run.state.mem :=
    keeps.keeps bootDir (by simp [keptFrames])
      invariant.windows.tableApart.2.symm
  refine ⟨bootAgree.trans invariant.bootKept, ?_, ?_⟩
  · intro some table points
    refine Agree.trans ?_ (invariant.behindKept some table points)
    by_cases long : 2 * pageSize < size
    · refine keeps.keepsBehind long table ?_
      rw [PointsTo, invariant.cr3Entry owned (by omega) (by omega) (by omega)]
      exact points
    · have listed := behind.short long some table points
      exact keeps.keeps table (by simp [keptFrames, listed])
        (behind.apart table listed).2.2.2
  · intro slot inTable alive
    refine (invariant.spaces slot inTable alive).congr ?_ bootAgree
    intro table member
    have isOwned : table ∈ ownedFrames run.state.processes frames :=
      mem_ownedFrames.mpr
        ⟨slot, inTable, alive, ProcessFrames.tables_owned member⟩
    refine keeps.keeps table (by simp [keptFrames, isOwned]) ?_
    rintro rfl
    exact start.windowTableOutside.pool (invariant.owned_frame isOwned).2.1

end Kept

/-! ## The calls keep the invariant -/

/-- The invariant, for some frames. -/
def SpaceRight
    (initial : KernelState) (bootDir windowTable : Nat)
    (reserved : List Pmm.PageBlock) (pool : Set Nat) (run : SpaceRun) : Prop :=
  ∃ frames lost, SpaceInvariant initial bootDir windowTable reserved pool run
    frames lost

namespace SpaceInvariant

variable {initial : KernelState} {bootDir windowTable : Nat}
variable {reserved : List Pmm.PageBlock} {pool : Set Nat} {run : SpaceRun}
variable {frames : Nat → ProcessFrames} {lost tables : List Nat}
variable {state : KernelState} {slot : Nat}

/-- A process has been entered. -/
theorem created
    {module : ModuleInfo} {name : List UInt8} {owned : ProcessFrames}
    (start : SpaceInitial initial bootDir windowTable reserved pool)
    (invariant : SpaceInvariant initial bootDir windowTable reserved pool run
      frames lost)
    (ownedDir : DirectoryOwned bootDir run.state)
    (behind : BehindTables initial bootDir windowTable pool module.size tables)
    (process : ProcessCreated run.state state bootDir windowTable
      (keptFrames bootDir run frames tables) module name slot owned) :
    SpaceInvariant initial bootDir windowTable reserved pool
      ⟨state, run.others⟩ (Function.update frames slot owned) lost := by
  obtain ⟨inTable, unused⟩ := findUnusedSlot_eq_some process.entered.wasUnused
  have notAlive : ¬ (run.state.processes slot).Alive := by
    simp [Pcb.Alive, unused]
  have alive : (owned.pcb run.state.nextPid name).Alive := Or.inl rfl
  obtain ⟨bootKept, behindKept, spaces⟩ :=
    invariant.kept_memory start ownedDir behind process.toCreationKeeps
  refine ⟨process.ready.windows, ?_,
    process.modules.trans invariant.modules, bootKept, behindKept, ?_, ?_,
    invariant.pids.entered process.entered⟩
  · rw [process.entered.processes]
    have moved : (owned.owned ++
        ownedFrames run.state.processes frames).Perm _ :=
      (ownedFrames_enter inTable notAlive alive owned).symm
    refine (process.takes _ pool invariant.allocator).perm ?_
    simpa only [List.map_append, List.append_assoc] using
      ((moved.append_right lost).map frameBlock).append_right
        (run.others ++ reserved)
  · intro other otherInTable otherAlive
    dsimp only at otherAlive ⊢
    rw [process.entered.processes] at otherAlive ⊢
    by_cases here : other = slot
    · subst here
      rw [Function.update_self, Function.update_self]
      refine ⟨rfl, rfl, process.dirNonzero, process.valid, process.inRange,
        process.entries.congr_others fun index bound => ?_⟩
      have sameEntry : entryAt state.mem bootDir index =
          entryAt run.state.mem bootDir index :=
        load_congr (Windows.entry_agree bound
          (bootKept.trans invariant.bootKept.symm))
      rw [kernelHalf, kernelHalf, sameEntry]
    · rw [Function.update_of_ne here] at otherAlive ⊢
      rw [Function.update_of_ne here]
      exact spaces other otherInTable otherAlive
  · intro other isCurrent
    dsimp only at isCurrent ⊢
    rw [process.entered.currentProcess] at isCurrent
    obtain ⟨otherInTable, running⟩ := invariant.current other isCurrent
    have different : other ≠ slot := by
      rintro rfl
      rw [unused] at running
      cases running
    rw [process.entered.processes, Function.update_of_ne different]
    exact ⟨otherInTable, running⟩

/-- A creation has given up; frames it has lost belong to nobody. -/
theorem notCreated
    {size : Nat}
    (start : SpaceInitial initial bootDir windowTable reserved pool)
    (invariant : SpaceInvariant initial bootDir windowTable reserved pool run
      frames lost)
    (ownedDir : DirectoryOwned bootDir run.state)
    (behind : BehindTables initial bootDir windowTable pool size tables)
    (gaveUp : NotCreated run.state state bootDir windowTable size
      (keptFrames bootDir run frames tables)) :
    SpaceRight initial bootDir windowTable reserved pool
      ⟨state, run.others⟩ := by
  obtain ⟨leaked, takes⟩ := gaveUp.takes
  obtain ⟨bootKept, behindKept, spaces⟩ :=
    invariant.kept_memory start ownedDir behind gaveUp.toCreationKeeps
  refine ⟨frames, leaked ++ lost, gaveUp.ready.windows, ?_,
    gaveUp.modules.trans invariant.modules, bootKept, behindKept, ?_, ?_,
    invariant.pids.of_same gaveUp.same.nextPid ?_ ?_⟩
  · rw [gaveUp.same.processes]
    have moved : (leaked ++ ownedFrames run.state.processes frames).Perm _ :=
      List.perm_append_comm
    refine (takes _ pool invariant.allocator).perm ?_
    simpa only [List.map_append, List.append_assoc] using
      ((moved.append_right lost).map frameBlock).append_right
        (run.others ++ reserved)
  · rw [gaveUp.same.processes]
    exact spaces
  · rw [gaveUp.same.processes, gaveUp.same.currentProcess]
    exact invariant.current
  · intro slot
    rw [gaveUp.same.processes]
  · intro slot
    rw [gaveUp.same.processes]

/-- What a creation needs to know about the module it is asked for. -/
theorem modulesReady
    (start : SpaceInitial initial bootDir windowTable reserved pool)
    (invariant : SpaceInvariant initial bootDir windowTable reserved pool run
      frames lost)
    (ownedDir : DirectoryOwned bootDir run.state)
    (name : List UInt8) :
    ∃ tables, ∀ module,
      run.state.modules.find? (fun module => module.name = name) =
        some module →
      BehindTables initial bootDir windowTable pool module.size tables ∧
      ModuleReady run.state bootDir windowTable
        (keptFrames bootDir run frames tables) module := by
  cases found : run.state.modules.find? fun module => module.name = name with
  | none =>
      refine ⟨[], fun module isSome => ?_⟩
      cases isSome
  | some module =>
      obtain ⟨tables, behind⟩ := start.behindTables module.size
      refine ⟨tables, fun other isSome => ?_⟩
      obtain rfl := Option.some.inj isSome
      exact ⟨behind, invariant.moduleReady start ownedDir behind
        (List.mem_of_find?_eq_some found)⟩

theorem create
    {name : List UInt8} {pid : Nat}
    (start : SpaceInitial initial bootDir windowTable reserved pool)
    (invariant : SpaceInvariant initial bootDir windowTable reserved pool run
      frames lost)
    (ownedDir : DirectoryOwned bootDir run.state)
    (performed : processCreateFromModule name run.state = some (pid, state)) :
    SpaceRight initial bootDir windowTable reserved pool
      ⟨state, run.others⟩ := by
  obtain ⟨tables, modules⟩ := invariant.modulesReady start ownedDir name
  rcases processCreateFromModule_ensures
      (invariant.memoryReady start ownedDir)
      (fun module found => (modules module found).2) (by simp [keptFrames])
      _ _ performed with
    ⟨module, slot, owned, found, _, process⟩ |
      ⟨_, rfl | ⟨module, found, gaveUp⟩⟩
  · exact ⟨_, lost,
      invariant.created start ownedDir (modules module found).1 process⟩
  · exact ⟨frames, lost, invariant⟩
  · exact invariant.notCreated start ownedDir (modules module found).1 gaveUp

theorem currentUsed
    (invariant : SpaceInvariant initial bootDir windowTable reserved pool run
      frames lost) :
    CurrentUsed run.state := by
  intro slot isCurrent
  rw [(invariant.current slot isCurrent).2]
  exact ProcessState.noConfusion

/-- The directory of a process leads to the windows as the loader's does. -/
theorem windows_of_dir
    (start : SpaceInitial initial bootDir windowTable reserved pool)
    (invariant : SpaceInvariant initial bootDir windowTable reserved pool run
      frames lost)
    (inTable : slot < maxProcesses)
    (alive : (run.state.processes slot).Alive) :
    KernelPaging run.state.mem (frames slot).dir bootDir windowTable ∧
      2 ^ 12 ∣ (frames slot).dir ∧ windowTable ≠ (frames slot).dir := by
  have paging := invariant.windows.paging
  have space := invariant.spaces slot inTable alive
  have entry : ∀ index, 768 ≤ index → index < 1024 → index ≠ 0x3FE →
      entryAt run.state.mem (frames slot).dir index =
        entryAt run.state.mem bootDir index :=
    fun index upper bound notStack =>
      (invariant.kernelEntry inTable alive upper bound notStack).trans
        (invariant.bootEntry bound).symm
  refine ⟨⟨?_, paging.kernelSelf, ?_, paging.kernelWindows⟩,
    space.valid.dirAligned, ?_⟩
  · rw [PointsTo, entry 1023 (by omega) (by omega) (by omega)]
    exact paging.kernelSelf
  · rw [PointsTo, entry 768 (by omega) (by omega) (by omega)]
    exact paging.kernelWindows
  · intro same
    refine start.windowTableOutside.pool ?_
    rw [same]
    exact (invariant.owned_frame (dir_owned inTable alive)).2.1

/-- A process that was READY is running, on its own directory. -/
theorem started
    (start : SpaceInitial initial bootDir windowTable reserved pool)
    (invariant : SpaceInvariant initial bootDir windowTable reserved pool run
      frames lost)
    (inTable : slot < maxProcesses)
    (ready : (run.state.processes slot).state = .ready)
    (pids : PidsRight (run.state.started slot)) :
    SpaceInvariant initial bootDir windowTable reserved pool
      ⟨run.state.started slot, run.others⟩ frames lost := by
  have alive : (run.state.processes slot).Alive := Or.inl ready
  have space := invariant.spaces slot inTable alive
  obtain ⟨paging, aligned, apart⟩ :=
    invariant.windows_of_dir start inTable alive
  have cr3 : (run.state.started slot).cr3 = (frames slot).dir := by
    rw [KernelState.started_cr3, space.pageDirectory]
  have sameAlive : ∀ other, ((run.state.started slot).processes other).Alive ↔
      (run.state.processes other).Alive := by
    intro other
    rw [KernelState.started_processes]
    by_cases here : other = slot
    · subst here
      simp [Pcb.Alive, ready]
    · rw [Function.update_of_ne here]
  refine ⟨⟨?_, invariant.windows.slots, ?_, ?_, ?_⟩, ?_, invariant.modules,
    invariant.bootKept, invariant.behindKept, ?_, ?_, pids⟩
  · rw [cr3]
    exact paging
  · intro slot _ frame impossible
    cases impossible
  · rw [cr3]
    exact aligned
  · rw [cr3]
    exact ⟨apart, invariant.windows.tableApart.2⟩
  · rw [KernelState.started_buddySys, ownedFrames_congr sameAlive]
    exact invariant.allocator
  · intro other otherInTable otherAlive
    have old := invariant.spaces other otherInTable
      ((sameAlive other).mp otherAlive)
    dsimp only
    rw [KernelState.started_processes]
    by_cases here : other = slot
    · subst here
      rw [Function.update_self]
      exact ⟨old.pageDirectory, old.kernelStack, old.dirNonzero, old.valid,
        old.inRange, old.entries⟩
    · rw [Function.update_of_ne here]
      exact old
  · intro other isCurrent
    dsimp only at isCurrent ⊢
    rw [KernelState.started_currentProcess] at isCurrent
    obtain rfl := Option.some.inj isCurrent
    rw [KernelState.started_processes, Function.update_self]
    exact ⟨inTable, rfl⟩

/-- The end of a process gives back two of its frames. -/
theorem exited_allocator
    (invariant : SpaceInvariant initial bootDir windowTable reserved pool run
      frames lost)
    {changed : Nat → Pcb}
    (inTable : slot < maxProcesses)
    (alive : (run.state.processes slot).Alive)
    (ended : ¬ (changed slot).Alive)
    (same : ∀ other, other ≠ slot → changed other = run.state.processes other) :
    Pmm.Invariant ((run.state.processes slot).release run.state.buddySys)
      ((ownedFrames changed frames ++ ((frames slot).lost ++ lost)).map
        frameBlock ++ (run.others ++ reserved)) pool := by
  have space := invariant.spaces slot inTable alive
  have dirFirst : (frames slot).owned.Perm
      ((frames slot).dir :: (frames slot).kernelStack ::
        (frames slot).lost) :=
    List.perm_append_singleton (frames slot).dir
      ((frames slot).kernelStack :: (frames slot).lost)
  have rest : ((frames slot).lost ++ ownedFrames changed frames ++ lost).Perm
      (ownedFrames changed frames ++ ((frames slot).lost ++ lost)) := by
    rw [← List.append_assoc]
    exact List.perm_append_comm.append_right lost
  have moved : (ownedFrames run.state.processes frames ++ lost).Perm
      ((frames slot).dir :: (frames slot).kernelStack ::
        (ownedFrames changed frames ++ ((frames slot).lost ++ lost))) :=
    (((ownedFrames_leave inTable alive ended same).trans
      (dirFirst.append_right _)).append_right lost).trans
        ((rest.cons _).cons _)
  have inOrder := invariant.allocator.perm
    ((moved.map frameBlock).append_right (run.others ++ reserved))
  rw [Pcb.release, space.pageDirectory, space.kernelStack,
    if_neg space.dirNonzero, sub32_wrap32_add (by have := space.inRange; omega)]
  exact inOrder.pmmFreePages.pmmFreePages

/-- Four frames of a process that ends belong to nobody. -/
theorem exited
    (invariant : SpaceInvariant initial bootDir windowTable reserved pool run
      frames lost)
    (isCurrent : run.state.currentProcess = some slot)
    (pids : PidsRight (run.state.exited slot)) :
    SpaceInvariant initial bootDir windowTable reserved pool
      ⟨run.state.exited slot, run.others⟩ frames
      ((frames slot).lost ++ lost) := by
  obtain ⟨inTable, running⟩ := invariant.current slot isCurrent
  have alive : (run.state.processes slot).Alive := Or.inr running
  have ended : ¬ ((run.state.exited slot).processes slot).Alive := by
    rw [KernelState.exited_processes, Function.update_self]
    simp [Pcb.Alive]
  have changed : ∀ other, other ≠ slot →
      (run.state.exited slot).processes other = run.state.processes other := by
    intro other different
    rw [KernelState.exited_processes, Function.update_of_ne different]
  have mem := @KernelState.exited_mem run.state slot
  have windows : Windows (run.state.exited slot) bootDir windowTable
      fun _ => none := by
    refine ⟨?_, ?_, ?_, ?_, ?_⟩
    · rw [mem, KernelState.exited_cr3]
      exact invariant.windows.paging
    · rw [KernelState.exited_tempMgr]
      exact invariant.windows.slots
    · intro slot _ frame impossible
      cases impossible
    · rw [KernelState.exited_cr3]
      exact invariant.windows.dirAligned
    · rw [KernelState.exited_cr3]
      exact invariant.windows.tableApart
  refine ⟨windows, ?_, KernelState.exited_modules.trans invariant.modules,
    ?_, ?_, ?_, ?_, pids⟩
  · dsimp only
    rw [KernelState.exited_buddySys]
    exact invariant.exited_allocator inTable alive ended changed
  · dsimp only
    rw [mem]
    exact invariant.bootKept
  · dsimp only
    rw [mem]
    exact invariant.behindKept
  · intro other otherInTable otherAlive
    have different : other ≠ slot := by
      rintro rfl
      exact ended otherAlive
    dsimp only at otherAlive ⊢
    rw [mem]
    rw [changed other different] at otherAlive ⊢
    exact invariant.spaces other otherInTable otherAlive
  · intro other stillCurrent
    dsimp only at stillCurrent
    rw [KernelState.exited_currentProcess] at stillCurrent
    cases stillCurrent

/-- The invariant, whatever the rest of the kernel does to the allocator. -/
theorem withBuddySys
    {sys : Pmm.BuddySystem} {others : List Pmm.PageBlock}
    (invariant : SpaceInvariant initial bootDir windowTable reserved pool run
      frames lost)
    (allocator : Pmm.Invariant sys
      ((ownedFrames run.state.processes frames ++ lost).map frameBlock ++
        (others ++ reserved)) pool) :
    SpaceInvariant initial bootDir windowTable reserved pool
      ⟨run.state.withBuddySys sys, others⟩ frames lost where
  windows := invariant.windows.withBuddySys sys
  allocator := allocator
  modules := invariant.modules
  bootKept := invariant.bootKept
  behindKept := invariant.behindKept
  spaces := invariant.spaces
  current := invariant.current
  pids := invariant.pids.of_same rfl (fun _ => rfl) fun _ => Iff.rfl

theorem allocate
    {next : SpaceRun} {order : Nat}
    (invariant : SpaceInvariant initial bootDir windowTable reserved pool run
      frames lost)
    (performed : (SpaceCall.allocate order).perform run = some next) :
    SpaceRight initial bootDir windowTable reserved pool next := by
  rw [SpaceCall.perform] at performed
  obtain rfl := Option.some.inj performed
  refine ⟨frames, lost, invariant.withBuddySys ?_⟩
  rcases invariant.allocator.pmmAllocPages_cases order with
    ⟨failed, _⟩ | ⟨nonzero, _, _, taken⟩
  · rw [failed, if_pos rfl]
    exact invariant.allocator
  · rw [if_neg nonzero]
    exact taken.perm List.perm_middle.symm

theorem release
    {next : SpaceRun} {block : Pmm.PageBlock}
    (invariant : SpaceInvariant initial bootDir windowTable reserved pool run
      frames lost)
    (member : block ∈ run.others)
    (performed : (SpaceCall.release block).perform run = some next) :
    SpaceRight initial bootDir windowTable reserved pool next := by
  rw [SpaceCall.perform] at performed
  obtain rfl := Option.some.inj performed
  refine ⟨frames, lost, invariant.withBuddySys ?_⟩
  have first := ((List.perm_cons_erase member).append_right reserved).append_left
    ((ownedFrames run.state.processes frames ++ lost).map frameBlock)
  exact (invariant.allocator.perm (first.trans List.perm_middle)).pmmFreePages

end SpaceInvariant

section Runs

variable {initial : KernelState} {bootDir windowTable : Nat}
variable {reserved : List Pmm.PageBlock} {pool : Set Nat} {run next : SpaceRun}

/-- One call keeps the invariant. -/
theorem SpaceRight.step
    {request : SpaceCall}
    (start : SpaceInitial initial bootDir windowTable reserved pool)
    (right : SpaceRight initial bootDir windowTable reserved pool run)
    (allowed : request.Permitted bootDir run)
    (performed : request.perform run = some next) :
    SpaceRight initial bootDir windowTable reserved pool next := by
  obtain ⟨frames, lost, invariant⟩ := right
  cases request with
  | process call =>
      rw [SpaceCall.perform, Option.map_eq_some_iff] at performed
      obtain ⟨state, called, rfl⟩ := performed
      have pids := invariant.pids.call invariant.currentUsed called
      cases call with
      | create name =>
          rw [ProcessCall.perform, Option.map_eq_some_iff] at called
          obtain ⟨⟨pid, _⟩, creates, rfl⟩ := called
          exact invariant.create start allowed creates
      | start pid =>
          rcases ProcessCall.perform_start_cases called with
            rfl | ⟨slot, found, rfl⟩
          · exact ⟨frames, lost, invariant⟩
          · obtain ⟨inTable, _, ready⟩ := findReadySlot_eq_some found
            exact ⟨frames, lost, invariant.started start inTable ready pids⟩
      | exit =>
          rcases ProcessCall.perform_exit_cases called with
            rfl | ⟨slot, current, rfl⟩
          · exact ⟨frames, lost, invariant⟩
          · exact ⟨frames, _, invariant.exited current pids⟩
  | allocate order =>
      exact invariant.allocate performed
  | release block =>
      exact invariant.release allowed performed

/-- The invariant holds in every state of a run. -/
theorem SpaceReachable.right
    (start : SpaceInitial initial bootDir windowTable reserved pool)
    (reached : SpaceReachable (SpaceCall.Permitted bootDir) initial run) :
    SpaceRight initial bootDir windowTable reserved pool run := by
  induction reached with
  | init =>
      exact ⟨fun _ => ⟨⟨0, 0, 0, 0, 0⟩, 0⟩, [], start.invariant _⟩
  | call request _ allowed performed inductionHypothesis =>
      exact inductionHypothesis.step start allowed performed

end Runs

/-! ## At boot -/

section Boot

variable (mem : Memory) {pageDirectory : Nat} (modules : List ModuleInfo)

/--
The kernel over the page tables of the loader, with short modules that the
loader has put below the region of the allocator.
-/
theorem spaceInitial_bootKernel
    (aligned : 2 ^ 12 ∣ pageDirectory)
    (below : pageDirectory + 34 * 4096 ≤ 0x1800000)
    (apart : ∀ module ∈ modules,
      2 ^ 12 ∣ module.start ∧ module.start < 0x1800000 ∧
        (module.start < pageDirectory ∨
          pageDirectory + 2 * 4096 ≤ module.start))
    (short : ∀ module ∈ modules, module.size ≤ 2 * pageSize) :
    SpaceInitial (bootKernel mem pageDirectory modules) pageDirectory
      (firstPageTable pageDirectory) [] Kmalloc.bootSys.freePages := by
  have first : firstPageTable pageDirectory = pageDirectory + 4096 := rfl
  have notFree : ∀ frame < 0x1800000,
      frame / pageSize ∉ Kmalloc.bootSys.freePages := by
    intro frame low free
    have bounds := mem_bootSys_freePages.mp free
    simp only [pageSize] at bounds
    omega
  refine ⟨⟨rfl, rfl, rfl⟩, rfl,
    (memoryReady_bootKernel mem modules aligned below).windows,
    Pmm.pmmInit_invariant Pmm.bss (by norm_num) (by norm_num) (by norm_num),
    ⟨by omega, notFree _ (by omega), fun module member => ?_⟩,
    ⟨by omega, notFree _ (by omega), fun module member => ?_⟩,
    fun module member => ?_, ?_⟩
  · have outside := (apart module member).2.2
    omega
  · have outside := (apart module member).2.2
    omega
  · obtain ⟨moduleAligned, low, _⟩ := apart module member
    exact ⟨moduleAligned, by omega, notFree _ low⟩
  · rintro ⟨module, member, long⟩
    have small := short module member
    omega

end Boot

theorem spaceInitial_demoKernel :
    SpaceInitial demoKernel 0x110000 0x111000 [] Kmalloc.bootSys.freePages := by
  refine spaceInitial_bootKernel (fun _ => 0) [demoModule] (by norm_num)
    (by norm_num) ?_ ?_
  · intro module member
    obtain rfl := List.mem_singleton.mp member
    decide
  · intro module member
    obtain rfl := List.mem_singleton.mp member
    decide

end MatrixOS
