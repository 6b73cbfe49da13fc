import MatrixOS.Isolation

namespace MatrixOS

open ByteMemory Paging StateOption

/-!
# User code

User code reaches memory through the directory in `cr3`, and the processor lets
it through where both entries of the walk permit it; anything else is a page
fault, and the access is not made.  An access is one byte wide, and a wider one
is several of them.  User code of a process is permitted until the process has
ended.
-/

/-- The physical address of an access of user code. -/
def userAccess (state : KernelState) (writes : Bool) (virtualAddr : Nat) :
    Option Nat :=
  match translate state.mem state.cr3 (wrap32 virtualAddr) with
  | none => none
  | some found =>
      if found.userAccessible && (!writes || found.writable) then
        some found.addr
      else
        none

/-- What user code and the kernel do. -/
inductive UserCall where
  | kernel (call : SpaceCall)
  | store (virtualAddr : Nat) (byte : UInt8)

namespace UserCall

def perform (run : SpaceRun) : UserCall → Option SpaceRun
  | kernel call => call.perform run
  | store virtualAddr byte =>
      (userAccess run.state true virtualAddr).map fun addr =>
        ⟨run.state.withMem (Function.update run.state.mem addr byte),
          run.others⟩

/-- User code runs while there is a current process. -/
def Permitted (bootDir : Nat) (run : SpaceRun) : UserCall → Prop
  | kernel call => call.Permitted bootDir run
  | store _ _ => run.state.currentProcess.isSome

end UserCall

inductive UserReachable (bootDir : Nat) (initial : KernelState) :
    SpaceRun → Prop
  | init : UserReachable bootDir initial ⟨initial, []⟩
  | call {run next : SpaceRun} (request : UserCall)
      (reached : UserReachable bootDir initial run)
      (allowed : request.Permitted bootDir run)
      (performed : request.perform run = some next) :
      UserReachable bootDir initial next

/-- The directory of the current process is the active one. -/
def OnOwnDirectory (state : KernelState) : Prop :=
  ∀ slot, state.currentProcess = some slot →
    state.cr3 = (state.processes slot).pageDirectory

/-! ## What an access reaches -/

/-- An access that is permitted leads through two entries for user code. -/
theorem userReaches_of_access
    {state : KernelState} {writes : Bool} {virtualAddr addr : Nat}
    (access : userAccess state writes virtualAddr = some addr) :
    ∃ frame, UserReaches state.mem state.cr3 frame ∧ 2 ^ 12 ∣ frame ∧
      InRange frame pageSize addr := by
  have inSpace := wrap32_lt virtualAddr
  rw [userAccess] at access
  generalize wrap32 virtualAddr = address at access inSpace
  simp only [Paging.translate] at access
  split at access
  · cases access
  rename_i found leads
  split at leads
  · rename_i dirPresent
    split at leads
    · rename_i tablePresent
      obtain rfl := Option.some.inj leads
      simp only [Bool.and_eq_true, Option.ite_none_right_eq_some,
        Option.some.injEq] at access
      obtain ⟨⟨⟨dirUser, tableUser⟩, _⟩, rfl⟩ := access
      refine ⟨_, ⟨address / 2 ^ 22, by omega, _, address / 2 ^ 12 % 2 ^ 10,
        Nat.mod_lt _ (by decide), ⟨dirPresent, rfl⟩, dirUser,
        ⟨tablePresent, rfl⟩, tableUser⟩, Nat.dvd_mul_left _ _, ?_⟩
      have offset : address % 2 ^ 12 < 2 ^ 12 := Nat.mod_lt _ (by decide)
      simp only [InRange, pageSize]
      omega
    · cases leads
  · cases leads

section Reached

variable {initial : KernelState} {bootDir windowTable : Nat}
variable {reserved : List Pmm.PageBlock} {pool : Set Nat} {run : SpaceRun}
variable {frames : Nat → ProcessFrames} {lost : List Nat} {slot : Nat}

/-- The current process has not ended. -/
theorem SpaceInvariant.current_alive
    (invariant : SpaceInvariant initial bootDir windowTable reserved pool run
      frames lost)
    (current : run.state.currentProcess = some slot) :
    slot < maxProcesses ∧ (run.state.processes slot).Alive :=
  ⟨(invariant.current slot current).1,
    Or.inr (invariant.current slot current).2⟩

theorem SpaceInvariant.supervisor
    (invariant : SpaceInvariant initial bootDir windowTable reserved pool run
      frames lost)
    (supervisor : Supervisor initial.mem bootDir) :
    Supervisor run.state.mem bootDir := by
  intro index upper bound
  rw [invariant.bootEntry bound]
  exact supervisor index upper bound

/-- User code reaches the code page and the stack page of its process. -/
theorem SpaceInvariant.access_own
    (invariant : SpaceInvariant initial bootDir windowTable reserved pool run
      frames lost)
    (supervisor : Supervisor initial.mem bootDir)
    (own : OnOwnDirectory run.state)
    (current : run.state.currentProcess = some slot)
    {writes : Bool} {virtualAddr addr : Nat}
    (access : userAccess run.state writes virtualAddr = some addr) :
    InRange (frames slot).code pageSize addr ∨
      InRange (frames slot).stack pageSize addr := by
  obtain ⟨inTable, alive⟩ := invariant.current_alive current
  obtain ⟨frame, reaches, _, inFrame⟩ := userReaches_of_access access
  rw [own slot current] at reaches
  rcases (invariant.spaces slot inTable alive).reaches
      (invariant.supervisor supervisor) reaches with rfl | rfl
  · exact Or.inl inFrame
  · exact Or.inr inFrame

/-- No frame is owned twice. -/
theorem SpaceInvariant.ownedFrames_nodup
    (invariant : SpaceInvariant initial bootDir windowTable reserved pool run
      frames lost) :
    (ownedFrames run.state.processes frames).Nodup := by
  have tiles := invariant.allocator.tiles.disjoint
  rw [List.map_append, List.append_assoc, List.append_assoc] at tiles
  have among := List.pairwise_map.mp (List.pairwise_append.mp tiles).1
  refine List.nodup_iff_pairwise_ne.mpr (among.imp fun apart same => ?_)
  subst same
  exact Set.disjoint_left.mp apart (Takes.mem_frameBlock.mpr rfl)
    (Takes.mem_frameBlock.mpr rfl)

/-- The six frames of a process are different ones. -/
theorem SpaceInvariant.owned_nodup
    (invariant : SpaceInvariant initial bootDir windowTable reserved pool run
      frames lost)
    (inTable : slot < maxProcesses)
    (alive : (run.state.processes slot).Alive) :
    (frames slot).owned.Nodup := by
  have each := (List.nodup_flatMap.mp invariant.ownedFrames_nodup).1 slot
    (List.mem_range.mpr inTable)
  rwa [if_pos alive] at each

/-- The page that a store of the current process goes to. -/
def OwnPage (owned : ProcessFrames) (page : Nat) : Prop :=
  page = owned.code ∨ page = owned.stack

theorem OwnPage.owned
    {owned : ProcessFrames} {page : Nat}
    (own : OwnPage owned page) :
    page ∈ owned.owned := by
  rcases own with rfl | rfl
  · simp [ProcessFrames.owned]
  · simp [ProcessFrames.owned]

theorem OwnPage.not_table
    {owned : ProcessFrames} {page : Nat}
    (own : OwnPage owned page)
    (distinct : owned.owned.Nodup) :
    page ∉ owned.tables := by
  simp only [ProcessFrames.owned, List.nodup_cons, List.mem_cons,
    List.not_mem_nil, or_false, not_or] at distinct
  simp only [ProgramFrames.tables, List.mem_cons, List.not_mem_nil, or_false,
    not_or]
  obtain ⟨_, ⟨_, stackStack, stackCode, _⟩, ⟨codeStack, codeCode, _⟩,
    ⟨_, stackDir⟩, codeDir, _⟩ := distinct
  rcases own with rfl | rfl
  · exact ⟨codeDir, Ne.symm codeCode, Ne.symm stackCode⟩
  · exact ⟨stackDir, Ne.symm codeStack, Ne.symm stackStack⟩

/-- A byte of one page does not touch another frame. -/
theorem update_agree
    {mem : Memory} {page frame addr : Nat} {byte : UInt8}
    (pageAligned : 2 ^ 12 ∣ page)
    (aligned : 2 ^ 12 ∣ frame)
    (different : frame ≠ page)
    (inPage : InRange page pageSize addr) :
    Agree frame pageSize (Function.update mem addr byte) mem := by
  have apart := frames_apart aligned pageAligned different
  intro other inFrame
  refine Function.update_of_ne ?_ _ _
  simp only [InRange, pageSize] at inPage inFrame apart
  omega

/-- A store to a page of a process keeps everything the kernel relies on. -/
theorem SpaceInvariant.stored
    (start : SpaceInitial initial bootDir windowTable reserved pool)
    (invariant : SpaceInvariant initial bootDir windowTable reserved pool run
      frames lost)
    (own : OnOwnDirectory run.state)
    (current : run.state.currentProcess = some slot)
    {page addr : Nat}
    (ownPage : OwnPage (frames slot) page)
    (inPage : InRange page pageSize addr)
    (byte : UInt8) :
    SpaceInvariant initial bootDir windowTable reserved pool
      ⟨run.state.withMem (Function.update run.state.mem addr byte), run.others⟩
      frames lost := by
  obtain ⟨inTable, alive⟩ := invariant.current_alive current
  have listed : page ∈ ownedFrames run.state.processes frames :=
    mem_ownedFrames.mpr ⟨slot, inTable, alive, ownPage.owned⟩
  obtain ⟨pageAligned, inPool, _⟩ := invariant.owned_frame listed
  have distinct := invariant.owned_nodup inTable alive
  have kept : ∀ frame, 2 ^ 12 ∣ frame → frame ≠ page →
      Agree frame pageSize (Function.update run.state.mem addr byte)
        run.state.mem :=
    fun frame aligned different =>
      update_agree pageAligned aligned different inPage
  have outside : ∀ frame, frame / pageSize ∉ pool → frame ≠ page := by
    rintro frame notInPool rfl
    exact notInPool inPool
  have notBoot := outside bootDir start.bootDirOutside.pool
  have notWindows := outside windowTable start.windowTableOutside.pool
  have notTable := ownPage.not_table distinct
  have cr3 : run.state.cr3 = (frames slot).dir := by
    rw [own slot current,
      (invariant.spaces slot inTable alive).pageDirectory]
  have notCr3 : run.state.cr3 ≠ page := by
    rintro rfl
    exact notTable (by simp [cr3, ProgramFrames.tables])
  have bootKept := kept bootDir invariant.windows.kernelDir_aligned notBoot
  refine ⟨invariant.windows.withMem
      (kept _ invariant.windows.dirAligned notCr3) bootKept
      (kept _ invariant.windows.windowTable_aligned notWindows),
    invariant.allocator, invariant.modules,
    bootKept.trans invariant.bootKept, ?_, ?_, invariant.current, ?_⟩
  · intro some table points
    have apart := (start.behind some).table_apart points
    exact (kept table apart.1 (outside table apart.2.1.pool)).trans
      (invariant.behindKept some table points)
  · intro other otherInTable otherAlive
    refine (invariant.spaces other otherInTable otherAlive).congr ?_ bootKept
    intro table member
    have isOwned : table ∈ ownedFrames run.state.processes frames :=
      mem_ownedFrames.mpr
        ⟨other, otherInTable, otherAlive, ProcessFrames.tables_owned member⟩
    refine kept table (invariant.owned_frame isOwned).1 ?_
    rintro rfl
    by_cases here : other = slot
    · subst here
      exact notTable member
    · exact invariant.owned_disjoint inTable otherInTable (Ne.symm here) alive
        otherAlive ownPage.owned (ProcessFrames.tables_owned member)
  · exact ⟨invariant.pids.counted, invariant.pids.bounds,
      invariant.pids.distinct⟩

/-! ## What a call of the kernel leaves alone -/

/-- The table entries and the memory of the processes that have not ended. -/
structure LeavesProcesses
    (before after : SpaceRun) (frames : Nat → ProcessFrames) : Prop where
  pageDirectory : ∀ slot < maxProcesses,
    (before.state.processes slot).Alive →
      (after.state.processes slot).pageDirectory =
        (before.state.processes slot).pageDirectory
  kernelStack : ∀ slot < maxProcesses,
    (before.state.processes slot).Alive →
      (after.state.processes slot).kernelStack =
        (before.state.processes slot).kernelStack
  contents : ∀ slot < maxProcesses, (before.state.processes slot).Alive →
    ∀ frame ∈ (frames slot).owned,
      Agree frame pageSize after.state.mem before.state.mem

theorem LeavesProcesses.refl (run : SpaceRun) :
    LeavesProcesses run run frames :=
  ⟨fun _ _ _ => rfl, fun _ _ _ => rfl, fun _ _ _ _ _ => .refl _⟩

/-- Only the state of one process changes. -/
theorem LeavesProcesses.of_update
    {next : SpaceRun} {status : ProcessState}
    (processes : next.state.processes =
      Function.update run.state.processes slot
        { run.state.processes slot with state := status })
    (mem : next.state.mem = run.state.mem) :
    LeavesProcesses run next frames where
  pageDirectory := by
    intro other _ _
    rw [processes]
    by_cases here : other = slot
    · rw [here, Function.update_self]
    · rw [Function.update_of_ne here]
  kernelStack := by
    intro other _ _
    rw [processes]
    by_cases here : other = slot
    · rw [here, Function.update_self]
    · rw [Function.update_of_ne here]
  contents := by
    intro _ _ _ _ _
    rw [mem]
    exact .refl _

/-- A creation keeps the active directory, the others and their memory. -/
theorem SpaceInvariant.create_leaves
    {name : List UInt8} {pid : Nat} {state : KernelState}
    (start : SpaceInitial initial bootDir windowTable reserved pool)
    (invariant : SpaceInvariant initial bootDir windowTable reserved pool run
      frames lost)
    (ownedDir : DirectoryOwned bootDir run.state)
    (performed : processCreateFromModule name run.state = some (pid, state)) :
    LeavesProcesses run ⟨state, run.others⟩ frames ∧
      state.cr3 = run.state.cr3 ∧
      state.currentProcess = run.state.currentProcess := by
  have kept : ∀ {size tables}, CreationKeeps run.state state bootDir windowTable
      size (keptFrames bootDir run frames tables) →
      ∀ slot < maxProcesses, (run.state.processes slot).Alive →
        ∀ frame ∈ (frames slot).owned,
          Agree frame pageSize state.mem run.state.mem := by
    intro size tables keeps slot inTable alive frame member
    have isOwned : frame ∈ ownedFrames run.state.processes frames :=
      mem_ownedFrames.mpr ⟨slot, inTable, alive, member⟩
    refine keeps.keeps frame (by simp [keptFrames, isOwned]) ?_
    rintro rfl
    exact start.windowTableOutside.pool (invariant.owned_frame isOwned).2.1
  obtain ⟨tables, modules⟩ := invariant.modulesReady start ownedDir name
  rcases processCreateFromModule_ensures
      (invariant.memoryReady start ownedDir)
      (fun module found => (modules module found).2) (by simp [keptFrames])
      _ _ performed with
    ⟨module, slot, owned, _, _, process⟩ | ⟨_, rfl | ⟨module, _, gaveUp⟩⟩
  · have wasUnused :=
      (findUnusedSlot_eq_some process.entered.wasUnused).2
    have same : ∀ other, (run.state.processes other).Alive →
        state.processes other = run.state.processes other := by
      intro other alive
      have different : other ≠ slot := by
        rintro rfl
        simp [Pcb.Alive, wasUnused] at alive
      rw [process.entered.processes, Function.update_of_ne different]
    exact ⟨⟨fun other _ alive => congrArg Pcb.pageDirectory (same other alive),
        fun other _ alive => congrArg Pcb.kernelStack (same other alive),
        kept process.toCreationKeeps⟩,
      process.cr3, process.entered.currentProcess⟩
  · exact ⟨.refl run, rfl, rfl⟩
  · have same := gaveUp.same.processes
    exact ⟨⟨fun other _ _ => by rw [same], fun other _ _ => by rw [same],
        kept gaveUp.toCreationKeeps⟩,
      gaveUp.cr3, gaveUp.same.currentProcess⟩

/-- A call of the kernel leaves the processes alone. -/
theorem SpaceInvariant.call_leaves
    {request : SpaceCall} {next : SpaceRun}
    (start : SpaceInitial initial bootDir windowTable reserved pool)
    (invariant : SpaceInvariant initial bootDir windowTable reserved pool run
      frames lost)
    (own : OnOwnDirectory run.state)
    (allowed : request.Permitted bootDir run)
    (performed : request.perform run = some next) :
    LeavesProcesses run next frames ∧ OnOwnDirectory next.state := by
  cases request with
  | process call =>
      rw [SpaceCall.perform, Option.map_eq_some_iff] at performed
      obtain ⟨state, called, rfl⟩ := performed
      cases call with
      | create name =>
          rw [ProcessCall.perform, Option.map_eq_some_iff] at called
          obtain ⟨⟨pid, _⟩, creates, rfl⟩ := called
          obtain ⟨leaves, cr3, current⟩ :=
            invariant.create_leaves start allowed creates
          refine ⟨leaves, fun slot isCurrent => ?_⟩
          dsimp only at isCurrent ⊢
          rw [current] at isCurrent
          obtain ⟨inTable, alive⟩ := invariant.current_alive isCurrent
          rw [cr3, own slot isCurrent]
          exact (leaves.pageDirectory slot inTable alive).symm
      | start pid =>
          rcases ProcessCall.perform_start_cases called with
            rfl | ⟨slot, found, rfl⟩
          · exact ⟨.refl run, own⟩
          · refine ⟨.of_update KernelState.started_processes rfl,
              fun other isCurrent => ?_⟩
            dsimp only at isCurrent ⊢
            rw [KernelState.started_currentProcess] at isCurrent
            obtain rfl := Option.some.inj isCurrent
            rw [KernelState.started_cr3, KernelState.started_processes,
              Function.update_self]
      | exit =>
          rcases ProcessCall.perform_exit_cases called with
            rfl | ⟨slot, current, rfl⟩
          · exact ⟨.refl run, own⟩
          · refine ⟨.of_update KernelState.exited_processes
              KernelState.exited_mem, fun other isCurrent => ?_⟩
            dsimp only at isCurrent
            rw [KernelState.exited_currentProcess] at isCurrent
            cases isCurrent
  | allocate order =>
      cases performed
      exact ⟨⟨fun _ _ _ => rfl, fun _ _ _ => rfl, fun _ _ _ _ _ => .refl _⟩,
        own⟩
  | release block =>
      cases performed
      exact ⟨⟨fun _ _ _ => rfl, fun _ _ _ => rfl, fun _ _ _ _ _ => .refl _⟩,
        own⟩

/-! ## Runs with user code -/

/-- The invariant of the kernel with user code on its own directory. -/
structure UserInvariant
    (initial : KernelState) (bootDir windowTable : Nat)
    (reserved : List Pmm.PageBlock) (pool : Set Nat) (run : SpaceRun) : Prop
    where
  right : SpaceRight initial bootDir windowTable reserved pool run
  own : OnOwnDirectory run.state

/-- A step of the kernel or of user code keeps the invariant. -/
theorem UserInvariant.step
    {request : UserCall} {next : SpaceRun}
    (start : SpaceInitial initial bootDir windowTable reserved pool)
    (supervisor : Supervisor initial.mem bootDir)
    (invariant : UserInvariant initial bootDir windowTable reserved pool run)
    (allowed : request.Permitted bootDir run)
    (performed : request.perform run = some next) :
    UserInvariant initial bootDir windowTable reserved pool next := by
  obtain ⟨⟨frames, lost, space⟩, own⟩ := invariant
  cases request with
  | kernel call =>
      exact ⟨SpaceRight.step start ⟨frames, lost, space⟩ allowed performed,
        (space.call_leaves start own allowed performed).2⟩
  | store virtualAddr byte =>
      obtain ⟨slot, current⟩ := Option.isSome_iff_exists.mp allowed
      obtain ⟨addr, access, rfl⟩ := Option.map_eq_some_iff.mp performed
      refine ⟨⟨frames, lost, ?_⟩, fun other isCurrent => own other isCurrent⟩
      rcases space.access_own supervisor own current access with inCode | inStack
      · exact space.stored start own current (Or.inl rfl) inCode byte
      · exact space.stored start own current (Or.inr rfl) inStack byte

theorem UserReachable.invariant
    (start : SpaceInitial initial bootDir windowTable reserved pool)
    (supervisor : Supervisor initial.mem bootDir)
    (reached : UserReachable bootDir initial run) :
    UserInvariant initial bootDir windowTable reserved pool run := by
  induction reached with
  | init =>
      refine ⟨⟨fun _ => ⟨⟨0, 0, 0, 0, 0⟩, 0⟩, [], start.invariant _⟩, ?_⟩
      intro slot isCurrent
      rw [start.table.currentProcess] at isCurrent
      cases isCurrent
  | call request _ allowed performed inductionHypothesis =>
      exact inductionHypothesis.step start supervisor allowed performed

/-! ## What others do while a process waits -/

/-- Steps in which the process in a slot neither runs nor has ended. -/
inductive RunsWithout (bootDir slot : Nat) (run : SpaceRun) : SpaceRun → Prop
  | start : RunsWithout bootDir slot run run
  | call {middle next : SpaceRun} (request : UserCall)
      (before : RunsWithout bootDir slot run middle)
      (alive : (middle.state.processes slot).Alive)
      (waits : middle.state.currentProcess ≠ some slot)
      (allowed : request.Permitted bootDir middle)
      (performed : request.perform middle = some next) :
      RunsWithout bootDir slot run next

/-- The process in a slot has its table entry, its tables and its pages. -/
structure KeepsProcess (slot : Nat) (before after : KernelState) : Prop where
  frames : spaceFrames after.mem (after.processes slot) =
    spaceFrames before.mem (before.processes slot)
  contents : ∀ frame ∈ (spaceFrames before.mem (before.processes slot)).owned,
    Agree frame pageSize after.mem before.mem

theorem KeepsProcess.trans
    {before middle after : KernelState}
    (first : KeepsProcess slot before middle)
    (second : KeepsProcess slot middle after) :
    KeepsProcess slot before after where
  frames := second.frames.trans first.frames
  contents := by
    intro frame member
    have later := second.contents frame
    rw [first.frames] at later
    exact (later member).trans (first.contents frame member)

/-- The frames are found again when the entries and the tables are kept. -/
theorem KeepsProcess.of_agree
    {before after : KernelState} {owned : ProcessFrames}
    (space : ProcessSpace before.mem bootDir (before.processes slot) owned)
    (pageDirectory : (after.processes slot).pageDirectory =
      (before.processes slot).pageDirectory)
    (kernelStack : (after.processes slot).kernelStack =
      (before.processes slot).kernelStack)
    (contents : ∀ frame ∈ owned.owned,
      Agree frame pageSize after.mem before.mem) :
    KeepsProcess slot before after := by
  have found := space.spaceFrames_eq
  have entry : ∀ table ∈ owned.owned, ∀ index < 1024,
      entryAt after.mem table index = entryAt before.mem table index :=
    fun table member index bound =>
      load_congr (Windows.entry_agree bound (contents table member))
  refine ⟨?_, by rwa [found]⟩
  have dir := entry owned.dir (by simp [ProcessFrames.owned])
  have codeTable := entry owned.codeTable (by simp [ProcessFrames.owned])
  have stackTable := entry owned.stackTable (by simp [ProcessFrames.owned])
  have codeFound := congrArg (fun frames => frames.codeTable) found
  have stackFound := congrArg (fun frames => frames.stackTable) found
  simp only [spaceFrames, space.pageDirectory] at codeFound stackFound
  simp only [spaceFrames, pageDirectory, kernelStack, space.pageDirectory,
    dir 0 (by omega), dir 0x3FE (by omega), codeFound, stackFound,
    codeTable 0 (by omega), stackTable 0x3FF (by omega)]

/-- A step that is not one of the process itself keeps it. -/
theorem UserInvariant.keepsProcess
    {request : UserCall} {next : SpaceRun}
    (start : SpaceInitial initial bootDir windowTable reserved pool)
    (supervisor : Supervisor initial.mem bootDir)
    (invariant : UserInvariant initial bootDir windowTable reserved pool run)
    (inTable : slot < maxProcesses)
    (alive : (run.state.processes slot).Alive)
    (waits : run.state.currentProcess ≠ some slot)
    (allowed : request.Permitted bootDir run)
    (performed : request.perform run = some next) :
    KeepsProcess slot run.state next.state := by
  obtain ⟨⟨frames, lost, space⟩, own⟩ := invariant
  have slotSpace := space.spaces slot inTable alive
  cases request with
  | kernel call =>
      obtain ⟨leaves, _⟩ := space.call_leaves start own allowed performed
      exact .of_agree slotSpace (leaves.pageDirectory slot inTable alive)
        (leaves.kernelStack slot inTable alive)
        (leaves.contents slot inTable alive)
  | store virtualAddr byte =>
      obtain ⟨running, current⟩ := Option.isSome_iff_exists.mp allowed
      obtain ⟨addr, access, rfl⟩ := Option.map_eq_some_iff.mp performed
      obtain ⟨runningInTable, runningAlive⟩ := space.current_alive current
      have different : running ≠ slot := by
        rintro rfl
        exact waits current
      -- The page of the store belongs to the running process.
      have apart : ∀ page, OwnPage (frames running) page →
          InRange page pageSize addr → ∀ frame ∈ (frames slot).owned,
          Agree frame pageSize
            (Function.update run.state.mem addr byte) run.state.mem := by
        intro page ownPage inPage frame member
        have pageOwned := space.owned_frame (mem_ownedFrames.mpr
          ⟨running, runningInTable, runningAlive, ownPage.owned⟩)
        have frameOwned := space.owned_frame (mem_ownedFrames.mpr
          ⟨slot, inTable, alive, member⟩)
        refine update_agree pageOwned.1 frameOwned.1 ?_ inPage
        rintro rfl
        exact space.owned_disjoint runningInTable inTable different
          runningAlive alive ownPage.owned member
      refine .of_agree slotSpace rfl rfl ?_
      rcases space.access_own supervisor own current access with inCode | inStack
      · exact apart _ (Or.inl rfl) inCode
      · exact apart _ (Or.inr rfl) inStack

end Reached

/-- The first process has been created. -/
theorem heapKernel_firstCreated :
    ∃ created,
      UserReachable 0x110000 heapKernel ⟨created, []⟩ ∧
      created.processes 0 =
        (firstFrames heapSys).pcb heapKernel.nextPid [0x61] ∧
      ProcessCreated heapKernel created 0x110000 0x111000 [0x110000, 0x300000]
        demoModule [0x61] 0 (firstFrames heapSys) ∧
      created.buddySys = remaining heapSys 6 := by
  obtain ⟨created, ran, process, remains⟩ := heapKernel_created
  refine ⟨created, ?_, ?_, process, remains⟩
  · refine UserReachable.init.call (.kernel (.process (.create [0x61])))
      (Or.inl rfl) ?_
    rw [UserCall.perform, SpaceCall.perform, ProcessCall.perform, ran]
    rfl
  · rw [process.entered.processes, Function.update_self]

section Waiting

variable {initial : KernelState} {bootDir windowTable : Nat}
variable {reserved : List Pmm.PageBlock} {pool : Set Nat} {run : SpaceRun}
variable {slot : Nat}

end Waiting

end MatrixOS
