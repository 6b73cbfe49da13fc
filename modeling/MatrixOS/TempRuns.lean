import MatrixOS.Boot
import MatrixOS.WindowAccess

namespace MatrixOS

open ByteMemory Paging StateOption

/-!
# Runs of temporary mappings

Any sequence of `temp_map_page` and `temp_unmap_page` from
`temp_mapping_init` on.
-/

/-- The calls of a run. -/
inductive TempCall where
  | map (physicalAddr : Nat)
  | unmap (virtualAddr : Nat)
  deriving DecidableEq

/-- The arguments are 32-bit values. -/
def TempCall.Word : TempCall → Prop
  | .map physicalAddr => physicalAddr < 2 ^ 32
  | .unmap virtualAddr => virtualAddr < 2 ^ 32

/-- What is unmapped is the address of a page. -/
def TempCall.Page : TempCall → Prop
  | .map physicalAddr => physicalAddr < 2 ^ 32
  | .unmap virtualAddr => virtualAddr < 2 ^ 32 ∧ 2 ^ 12 ∣ virtualAddr

/--
The kernel, and for every virtual address the page of the last call of
`temp_map_page` that returned it.
-/
structure TempRun where
  state : KernelState
  latest : Nat → Option Nat

/-- One call; `none` when it does not return. -/
def TempCall.perform (run : TempRun) : TempCall → Option TempRun
  | .map physicalAddr => do
      let (virtualAddr, state) ← tempMapPage physicalAddr run.state
      if virtualAddr = 0 then
        some ⟨state, run.latest⟩
      else
        some ⟨state, Function.update run.latest virtualAddr (some physicalAddr)⟩
  | .unmap virtualAddr => do
      let ((), state) ← tempUnmapPage virtualAddr run.state
      some ⟨state, run.latest⟩

/-- A state whose temporary mappings have just been initialised. -/
structure TempInitial
    (state : KernelState) (kernelDir windowTable : Nat) : Prop where
  initialised : state.tempMgr = tempMappingInit
  paging : KernelPaging state.mem state.cr3 kernelDir windowTable
  dirAligned : 2 ^ 12 ∣ state.cr3
  tableApart : windowTable ≠ state.cr3 ∧ windowTable ≠ kernelDir

/-- The states of the runs from an initial state. -/
inductive TempReachable (permitted : TempCall → Prop) (initial : KernelState) :
    TempRun → Prop
  | init : TempReachable permitted initial ⟨initial, fun _ => none⟩
  | call {run next : TempRun} (request : TempCall)
      (reached : TempReachable permitted initial run)
      (allowed : permitted request)
      (performed : request.perform run = some next) :
      TempReachable permitted initial next

theorem TempCall.Page.word {request : TempCall} (page : request.Page) :
    request.Word := by
  cases request with
  | map _ => exact page
  | unmap _ => exact page.1

theorem TempReachable.mono
    {permitted weaker : TempCall → Prop}
    {initial : KernelState} {run : TempRun}
    (reached : TempReachable permitted initial run)
    (implies : ∀ request, permitted request → weaker request) :
    TempReachable weaker initial run := by
  induction reached with
  | init =>
      exact .init
  | call request _ allowed performed inductionHypothesis =>
      exact .call request inductionHypothesis (implies _ allowed) performed

/-! ## One call -/

section Calls

variable {state : KernelState} {kernelDir windowTable : Nat}
variable {used : Nat → Bool}

theorem TempInitial.windows
    (initial : TempInitial state kernelDir windowTable) :
    Windows state kernelDir windowTable fun _ => none where
  paging := initial.paging
  slots := by
    rw [initial.initialised]
    exact slots_tempMappingInit
  mapped := by
    intro slot inTable frame impossible
    cases impossible
  dirAligned := initial.dirAligned
  tableApart := initial.tableApart

/-- An address that does not start a page is refused. -/
theorem tempMapPage_unaligned
    {page : Nat}
    (unaligned : ¬ 2 ^ 12 ∣ page) :
    tempMapPage page state = some (0, state) := by
  have lowBits := pageOffset_eq_zero_iff.not.mpr unaligned
  rw [tempMapPage, tempMapPageNested, if_pos lowBits]
  rfl

/-- Without a free slot a page is refused. -/
theorem tempMapPage_full
    (slots : Slots state.tempMgr used)
    (full : ∀ slot < tempMappingCount, used slot = true)
    {page : Nat}
    (aligned : 2 ^ 12 ∣ page) :
    tempMapPage page state = some (0, state) := by
  have lowBits := pageOffset_eq_zero_iff.mpr aligned
  rw [tempMapPage, tempMapPageNested, if_neg (not_not.mpr lowBits)]
  refine (bind_of_eq slots.acquire).trans ?_
  refine (bind_of_eq rfl).trans ?_
  simp only [KernelState.withTempMgr_tempMgr, slots.findSlot_eq_none full]
  refine (bind_of_eq slots.relock).trans ?_
  rfl

/-- Every slot is in use, or there is a lowest free one. -/
theorem exists_lowest (used : Nat → Bool) :
    (∀ slot < tempMappingCount, used slot = true) ∨
    ∃ slot < tempMappingCount, used slot = false ∧
      ∀ lower < slot, used lower = true := by
  by_cases full : ∀ slot < tempMappingCount, used slot = true
  · exact Or.inl full
  · have exists_free : ∃ slot, slot < tempMappingCount ∧
        used slot = false := by
      simpa using full
    obtain ⟨inTable, free⟩ := Nat.find_spec exists_free
    refine Or.inr ⟨_, inTable, free, fun lower below => ?_⟩
    have notFree := Nat.find_min exists_free below
    simpa [Nat.lt_trans below inTable] using notFree

/-- What `temp_map_page` can do. -/
theorem tempMapPage_cases
    (paging : KernelPaging state.mem state.cr3 kernelDir windowTable)
    (slots : Slots state.tempMgr used)
    (page : Nat) :
    (tempMapPage page state = some (0, state) ∧
      (2 ^ 12 ∣ page → ∀ slot < tempMappingCount, used slot = true)) ∨
    ∃ slot < tempMappingCount, used slot = false ∧ 2 ^ 12 ∣ page ∧
      ∃ mgr, Slots mgr (Function.update used slot true) ∧
        tempMapPage page state =
          some (windowAddr slot,
            state.withWindow windowTable slot (page ||| 0x03) mgr) := by
  by_cases aligned : 2 ^ 12 ∣ page
  · rcases exists_lowest used with full | ⟨slot, inTable, free, lowest⟩
    · exact Or.inl ⟨tempMapPage_full slots full aligned, fun _ => full⟩
    · obtain ⟨mgr, taken, run⟩ :=
        tempMapPage_eq paging slots inTable free lowest aligned
      exact Or.inr ⟨_, inTable, free, aligned, mgr, taken, run⟩
  · exact Or.inl ⟨tempMapPage_unaligned aligned, fun isAligned =>
      absurd isAligned aligned⟩

/-- The addresses that the range check of `temp_unmap_page` refuses. -/
def OutsideWindows (virtualAddr : Nat) : Prop :=
  virtualAddr < tempMappingAddr - (tempMappingCount - 1) * pageSize ∨
    virtualAddr > tempMappingAddr

/-- The slot that `temp_unmap_page` computes. -/
def unmapSlot (virtualAddr : Nat) : Nat :=
  (tempMappingAddr - virtualAddr) / pageSize

/-- The division rounds the distance down, so it picks a slot of the table. -/
theorem unmapSlot_lt
    {virtualAddr : Nat}
    (inside : ¬ OutsideWindows virtualAddr) :
    unmapSlot virtualAddr < tempMappingCount := by
  simp only [OutsideWindows, unmapSlot, tempMappingCount, pageSize] at *
  omega

/-- An address in range lies in the page of a window. -/
theorem exists_window
    {virtualAddr : Nat}
    (inside : ¬ OutsideWindows virtualAddr) :
    ∃ slot < tempMappingCount,
      virtualAddr / 2 ^ 12 = windowAddr slot / 2 ^ 12 ∧
        (slot = unmapSlot virtualAddr ↔ 2 ^ 12 ∣ virtualAddr) := by
  simp only [OutsideWindows, unmapSlot, windowAddr, tempMappingAddr,
    tempMappingCount, pageSize] at *
  exact ⟨0xC03FF000 / 2 ^ 12 - virtualAddr / 2 ^ 12, by omega, by omega,
    by omega⟩

/--
What `temp_unmap_page` does: it frees the slot it computes and clears the table
entry of the page the address is in.
-/
theorem tempUnmapPage_spec
    (paging : KernelPaging state.mem state.cr3 kernelDir windowTable)
    (slots : Slots state.tempMgr used)
    (virtualAddr : Nat) :
    (tempUnmapPage virtualAddr state = some ((), state) ∧
      (OutsideWindows virtualAddr ∨ used (unmapSlot virtualAddr) = false)) ∨
    ¬ OutsideWindows virtualAddr ∧ used (unmapSlot virtualAddr) = true ∧
      ∃ cleared < tempMappingCount,
        virtualAddr / 2 ^ 12 = windowAddr cleared / 2 ^ 12 ∧
        (cleared = unmapSlot virtualAddr ↔ 2 ^ 12 ∣ virtualAddr) ∧
        ∃ mgr,
          Slots mgr (Function.update used (unmapSlot virtualAddr) false) ∧
          tempUnmapPage virtualAddr state =
            some ((), state.withWindow windowTable cleared 0 mgr) := by
  by_cases outside : OutsideWindows virtualAddr
  · exact Or.inl ⟨tempUnmapPage_outside outside, Or.inl outside⟩
  · have inTable := unmapSlot_lt outside
    cases inUse : used (unmapSlot virtualAddr) with
    | false =>
        exact Or.inl
          ⟨tempUnmapPage_unused outside rfl inTable slots inUse, Or.inr rfl⟩
    | true =>
        obtain ⟨cleared, clearedInTable, inWindow, agree⟩ :=
          exists_window outside
        obtain ⟨mgr, given, run⟩ := tempUnmapPage_eq outside rfl inTable
          paging slots inUse clearedInTable inWindow
        exact Or.inr ⟨outside, rfl, cleared, clearedInTable, inWindow, agree,
          mgr, given, run⟩

/--
It frees a slot by the distance from the highest window, and clears the table
entry of the page the address is in; the two agree when the address is that of
a page.
-/
theorem tempUnmapPage_cases
    (paging : KernelPaging state.mem state.cr3 kernelDir windowTable)
    (slots : Slots state.tempMgr used)
    (virtualAddr : Nat) :
    (tempUnmapPage virtualAddr state = some ((), state) ∧
      ∀ slot < tempMappingCount, virtualAddr = windowAddr slot →
        used slot = false) ∨
    ∃ slot < tempMappingCount, ∃ cleared < tempMappingCount,
      used slot = true ∧
      (2 ^ 12 ∣ virtualAddr → cleared = slot ∧ virtualAddr = windowAddr slot) ∧
      ∃ mgr, Slots mgr (Function.update used slot false) ∧
        tempUnmapPage virtualAddr state =
          some ((), state.withWindow windowTable cleared 0 mgr) := by
  rcases tempUnmapPage_spec paging slots virtualAddr with
    ⟨run, refused⟩ | ⟨inside, inUse, cleared, clearedInTable, inWindow,
      agree, mgr, given, run⟩
  · refine Or.inl ⟨run, ?_⟩
    rintro slot inTable rfl
    obtain ⟨accepted, slotIs⟩ := windowAddr_accepted inTable
    rcases refused with outside | unused
    · exact absurd outside accepted
    · exact slotIs ▸ unused
  · refine Or.inr ⟨_, unmapSlot_lt inside, cleared, clearedInTable, inUse,
      fun aligned => ?_, mgr, given, run⟩
    have same := agree.mpr aligned
    refine ⟨same, ?_⟩
    rw [← same]
    have windowAligned : 2 ^ 12 ∣ windowAddr cleared := by
      simp only [windowAddr, tempMappingAddr, tempMappingCount, pageSize] at *
      omega
    rw [← Nat.div_mul_cancel aligned, inWindow,
      Nat.div_mul_cancel windowAligned]

theorem TempCall.perform_map_of_eq
    {page virtualAddr : Nat} {next : KernelState}
    (latest : Nat → Option Nat)
    (done : tempMapPage page state = some (virtualAddr, next))
    (nonzero : virtualAddr ≠ 0) :
    (TempCall.map page).perform ⟨state, latest⟩ =
      some ⟨next, Function.update latest virtualAddr (some page)⟩ := by
  simp [TempCall.perform, done, nonzero]

end Calls

/-! ## The table of the mappings -/

/-- The table entry of a window. -/
def windowEntry (state : KernelState) (slot : Nat) : Nat :=
  pageEntry state.mem state.cr3 (windowAddr slot)

theorem KernelPaging.windowEntry_eq
    {state : KernelState} {kernelDir windowTable slot : Nat}
    (paging : KernelPaging state.mem state.cr3 kernelDir windowTable)
    (inTable : slot < tempMappingCount) :
    windowEntry state slot = entryAt state.mem windowTable (1023 - slot) := by
  have addr : windowAddr slot = 0xC03FF000 - slot * 4096 := rfl
  simp only [tempMappingCount] at inTable
  have dirIndex : windowAddr slot / 2 ^ 22 = 768 := by omega
  have tabIndex : windowAddr slot / 2 ^ 12 % 2 ^ 10 = 1023 - slot := by omega
  rw [windowEntry, pageEntry, dirIndex, tabIndex, paging.dirWindows.2]

/-- The bit mask, the counts and the table entries agree. -/
structure TempTable (run : TempRun) : Prop where
  available : ∀ slot < tempMappingCount,
    run.state.tempMgr.availableSlots.testBit slot = true ↔
      run.state.tempMgr.refCount slot = 0
  counted : ∀ slot < tempMappingCount, run.state.tempMgr.refCount slot ≤ 1
  live : ∀ slot < tempMappingCount, run.state.tempMgr.refCount slot = 1 →
    ∃ page, run.latest (windowAddr slot) = some page ∧
      windowEntry run.state slot = page ||| 0x03
  released : ∀ slot < tempMappingCount, run.state.tempMgr.refCount slot = 0 →
    run.latest (windowAddr slot) ≠ none → windowEntry run.state slot = 0

/-- The invariant of the runs, by which slots are in use. -/
structure TempInvariant
    (run : TempRun) (kernelDir windowTable : Nat) (used : Nat → Bool) :
    Prop where
  paging : KernelPaging run.state.mem run.state.cr3 kernelDir windowTable
  dirAligned : 2 ^ 12 ∣ run.state.cr3
  tableApart : windowTable ≠ run.state.cr3 ∧ windowTable ≠ kernelDir
  slots : Slots run.state.tempMgr used
  live : ∀ slot < tempMappingCount, used slot = true →
    ∃ page, run.latest (windowAddr slot) = some page ∧
      entryAt run.state.mem windowTable (1023 - slot) = page ||| 0x03
  released : ∀ slot < tempMappingCount, used slot = false →
    run.latest (windowAddr slot) ≠ none →
      entryAt run.state.mem windowTable (1023 - slot) = 0

theorem windowAddr_inj
    {slot other : Nat}
    (inTable : slot < tempMappingCount)
    (otherInTable : other < tempMappingCount)
    (same : windowAddr slot = windowAddr other) :
    slot = other := by
  simp only [windowAddr, tempMappingAddr, tempMappingCount, pageSize]
    at inTable otherInTable same
  omega

theorem windowAddr_ne_zero
    {slot : Nat}
    (inTable : slot < tempMappingCount) :
    windowAddr slot ≠ 0 := by
  simp only [windowAddr, tempMappingAddr, tempMappingCount, pageSize]
    at inTable ⊢
  omega

/-- The other windows keep their entries. -/
theorem entryAt_withWindow_of_ne
    {mem : Memory} {windowTable slot other entry : Nat}
    (inTable : slot < tempMappingCount)
    (otherInTable : other < tempMappingCount)
    (different : other ≠ slot) :
    entryAt (store mem 4 (entryAddr windowTable (1023 - slot)) entry)
        windowTable (1023 - other) =
      entryAt mem windowTable (1023 - other) := by
  simp only [tempMappingCount] at inTable otherInTable
  exact load_store_of_disjoint (by simp only [entryAddr]; omega)

namespace TempInvariant

variable {run next : TempRun} {kernelDir windowTable : Nat}
variable {used : Nat → Bool}

theorem windowEntry_eq
    (invariant : TempInvariant run kernelDir windowTable used)
    {slot : Nat}
    (inTable : slot < tempMappingCount) :
    windowEntry run.state slot =
      entryAt run.state.mem windowTable (1023 - slot) :=
  invariant.paging.windowEntry_eq inTable

/-- What the invariant says about the bit mask, the counts and the entries. -/
theorem table (invariant : TempInvariant run kernelDir windowTable used) :
    TempTable run := by
  refine ⟨fun slot inTable => ?_, fun slot inTable => ?_,
    fun slot inTable one => ?_, fun slot inTable zero before => ?_⟩
  · rw [invariant.slots.available slot inTable,
      invariant.slots.counted slot inTable]
    cases used slot <;> simp
  · rw [invariant.slots.counted slot inTable]
    exact Bool.toNat_le _
  · rw [invariant.windowEntry_eq inTable]
    exact invariant.live slot inTable
      ((invariant.slots.counted_eq_one inTable).mp one)
  · rw [invariant.windowEntry_eq inTable]
    exact invariant.released slot inTable
      ((invariant.slots.counted_eq_zero inTable).mp zero) before

/-- Writing the entry of a window. -/
theorem withWindow
    (invariant : TempInvariant run kernelDir windowTable used)
    {slot entry : Nat}
    (inTable : slot < tempMappingCount)
    {mgr : TempMappingManager} {inUse : Bool}
    (slots : Slots mgr (Function.update used slot inUse))
    {latest : Nat → Option Nat}
    (others : ∀ other < tempMappingCount, other ≠ slot →
      latest (windowAddr other) = run.latest (windowAddr other))
    (live : inUse = true → ∃ page, latest (windowAddr slot) = some page ∧
      entry % 256 ^ 4 = page ||| 0x03)
    (released : inUse = false → entry % 256 ^ 4 = 0) :
    TempInvariant ⟨run.state.withWindow windowTable slot entry mgr, latest⟩
      kernelDir windowTable (Function.update used slot inUse) where
  paging := invariant.paging.sameOffWindows invariant.dirAligned
    invariant.tableApart (SameOffWindows.windowEntry _ inTable _)
  dirAligned := invariant.dirAligned
  tableApart := invariant.tableApart
  slots := slots
  live := by
    intro other otherInTable isUsed
    by_cases same : other = slot
    · subst same
      rw [Function.update_self] at isUsed
      obtain ⟨page, latestPage, value⟩ := live isUsed
      exact ⟨page, latestPage, load_store.trans value⟩
    · rw [Function.update_of_ne same] at isUsed
      obtain ⟨page, latestPage, value⟩ :=
        invariant.live other otherInTable isUsed
      exact ⟨page, (others other otherInTable same).trans latestPage,
        (entryAt_withWindow_of_ne inTable otherInTable same).trans value⟩
  released := by
    intro other otherInTable notUsed before
    by_cases same : other = slot
    · subst same
      rw [Function.update_self] at notUsed
      exact load_store.trans (released notUsed)
    · rw [Function.update_of_ne same] at notUsed
      have earlier : run.latest (windowAddr other) ≠ none :=
        fun none => before ((others other otherInTable same).trans none)
      exact (entryAt_withWindow_of_ne inTable otherInTable same).trans
        (invariant.released other otherInTable notUsed earlier)

/-- The other windows in use stay in use and keep their entries. -/
theorem keepsOther
    (invariant : TempInvariant run kernelDir windowTable used)
    {slot other entry : Nat} {mgr : TempMappingManager}
    {latest : Nat → Option Nat} {flag : Bool}
    (changed :
      TempInvariant ⟨run.state.withWindow windowTable slot entry mgr, latest⟩
        kernelDir windowTable (Function.update used slot flag))
    (inTable : slot < tempMappingCount)
    (otherInTable : other < tempMappingCount)
    (different : other ≠ slot)
    (isUsed : used other = true) :
    Function.update used slot flag other = true ∧
      windowEntry (run.state.withWindow windowTable slot entry mgr) other =
        windowEntry run.state other := by
  refine ⟨(Function.update_of_ne different _ _).trans isUsed, ?_⟩
  rw [changed.windowEntry_eq otherInTable,
    invariant.windowEntry_eq otherInTable]
  exact entryAt_withWindow_of_ne inTable otherInTable different

/--
A call on a page returns and keeps the invariant.  The live windows stay as
they are, except for the one that is given back.
-/
theorem call
    (invariant : TempInvariant run kernelDir windowTable used)
    (request : TempCall)
    (allowed : request.Page) :
    ∃ next after, request.perform run = some next ∧
      TempInvariant next kernelDir windowTable after ∧
      ∀ slot < tempMappingCount, used slot = true →
        request ≠ .unmap (windowAddr slot) →
        after slot = true ∧
          next.latest (windowAddr slot) = run.latest (windowAddr slot) ∧
          windowEntry next.state slot = windowEntry run.state slot := by
  cases request with
  | map page =>
      rcases tempMapPage_cases invariant.paging invariant.slots page with
        ⟨done, _⟩ | ⟨slot, inTable, free, aligned, mgr, slots, done⟩
      · exact ⟨run, used, by simp [TempCall.perform, done], invariant,
          fun slot inTable isUsed _ => ⟨isUsed, rfl, rfl⟩⟩
      · have inWord : page < 2 ^ 32 := allowed
        have others : ∀ other < tempMappingCount, other ≠ slot →
            Function.update run.latest (windowAddr slot) (some page)
              (windowAddr other) = run.latest (windowAddr other) :=
          fun other otherInTable different =>
            Function.update_of_ne (fun same =>
              different (windowAddr_inj otherInTable inTable same)) _ _
        have entered : TempInvariant
            ⟨run.state.withWindow windowTable slot (page ||| 0x03) mgr,
              Function.update run.latest (windowAddr slot) (some page)⟩
            kernelDir windowTable (Function.update used slot true) := by
          refine invariant.withWindow inTable slots others (fun _ => ?_)
            (by simp)
          exact ⟨page, Function.update_self .., or_flags_mod aligned
            (by omega) (by decide)⟩
        refine ⟨_, _, ?_, entered, fun other otherInTable isUsed _ => ?_⟩
        · simp [TempCall.perform, done, windowAddr_ne_zero inTable]
        · have different : other ≠ slot := by
            rintro rfl
            rw [free] at isUsed
            cases isUsed
          obtain ⟨stillUsed, sameEntry⟩ := invariant.keepsOther entered inTable
            otherInTable different isUsed
          exact ⟨stillUsed, others other otherInTable different, sameEntry⟩
  | unmap virtualAddr =>
      obtain ⟨_, aligned⟩ := allowed
      rcases tempUnmapPage_cases invariant.paging invariant.slots virtualAddr
        with ⟨done, _⟩ |
          ⟨slot, inTable, cleared, clearedInTable, inUse, isPage, mgr, slots,
            done⟩
      · exact ⟨run, used, by simp [TempCall.perform, done], invariant,
          fun slot inTable isUsed _ => ⟨isUsed, rfl, rfl⟩⟩
      · obtain ⟨rfl, rfl⟩ := isPage aligned
        have given : TempInvariant
            ⟨run.state.withWindow windowTable cleared 0 mgr, run.latest⟩
            kernelDir windowTable (Function.update used cleared false) :=
          invariant.withWindow inTable slots (fun _ _ _ => rfl) (by simp)
            (by simp)
        refine ⟨_, _, ?_, given, fun other otherInTable isUsed another => ?_⟩
        · simp [TempCall.perform, done]
        · have different : other ≠ cleared := by
            rintro rfl
            exact another rfl
          obtain ⟨stillUsed, sameEntry⟩ := invariant.keepsOther given inTable
            otherInTable different isUsed
          exact ⟨stillUsed, rfl, sameEntry⟩

end TempInvariant

/-! ## Runs -/

theorem TempInitial.invariant
    {state : KernelState} {kernelDir windowTable : Nat}
    (initial : TempInitial state kernelDir windowTable) :
    TempInvariant ⟨state, fun _ => none⟩ kernelDir windowTable
      fun _ => false where
  paging := initial.paging
  dirAligned := initial.dirAligned
  tableApart := initial.tableApart
  slots := initial.windows.slots
  live := by
    intro slot inTable impossible
    cases impossible
  released := fun _ _ _ before => absurd rfl before

/-- The invariant holds in every state of a run. -/
theorem TempReachable.invariant
    {state : KernelState} {run : TempRun} {kernelDir windowTable : Nat}
    (reached : TempReachable TempCall.Page state run)
    (initial : TempInitial state kernelDir windowTable) :
    ∃ used, TempInvariant run kernelDir windowTable used := by
  induction reached with
  | init =>
      exact ⟨_, initial.invariant⟩
  | call request _ allowed performed inductionHypothesis =>
      obtain ⟨used, invariant⟩ := inductionHypothesis
      obtain ⟨next, after, done, kept, _⟩ := invariant.call request allowed
      obtain rfl := Option.some.inj (done.symm.trans performed)
      exact ⟨after, kept⟩

/-- What the callers of the mapping functions rely on in a state. -/
structure TempContract (run : TempRun) : Prop where
  table : TempTable run
  distinct : ∀ slot < tempMappingCount, ∀ other < tempMappingCount,
    slot ≠ other →
      windowAddr slot / pageSize ≠ windowAddr other / pageSize
  returns : ∀ request : TempCall, request.Page →
    ∃ next, request.perform run = some next
  fresh : ∀ page virtualAddr state,
    tempMapPage page run.state = some (virtualAddr, state) →
      virtualAddr ≠ 0 →
      ∃ slot < tempMappingCount, virtualAddr = windowAddr slot ∧
        run.state.tempMgr.refCount slot = 0 ∧ state.tempMgr.refCount slot = 1
  keeps : ∀ (request : TempCall) next, request.Page →
    request.perform run = some next →
      ∀ slot < tempMappingCount, run.state.tempMgr.refCount slot = 1 →
        request ≠ .unmap (windowAddr slot) →
        next.state.tempMgr.refCount slot = 1 ∧
          next.latest (windowAddr slot) = run.latest (windowAddr slot) ∧
          windowEntry next.state slot = windowEntry run.state slot
  fails : ∀ page, 2 ^ 12 ∣ page →
    ((∃ state, tempMapPage page run.state = some (0, state)) ↔
      ∀ slot < tempMappingCount, run.state.tempMgr.refCount slot ≠ 0)
  unchanged : ∀ page state,
    tempMapPage page run.state = some (0, state) → state = run.state

/-- The contract holds in every state of every run on pages. -/
theorem tempReachable_contract
    {state : KernelState} {run : TempRun} {kernelDir windowTable : Nat}
    (initial : TempInitial state kernelDir windowTable)
    (reached : TempReachable TempCall.Page state run) :
    TempContract run := by
  obtain ⟨used, invariant⟩ := reached.invariant initial
  have slots := invariant.slots
  refine ⟨invariant.table, ?_, ?_, ?_, ?_, ?_, ?_⟩
  · intro slot inTable other otherInTable different same
    have slotIs : windowAddr slot = 0xC03FF000 - slot * 4096 := rfl
    have otherIs : windowAddr other = 0xC03FF000 - other * 4096 := rfl
    simp only [tempMappingCount, pageSize] at inTable otherInTable same
    omega
  · intro request allowed
    obtain ⟨next, _, done, _⟩ := invariant.call request allowed
    exact ⟨next, done⟩
  · intro page virtualAddr next mapped nonzero
    rcases tempMapPage_cases invariant.paging slots page with
      ⟨done, _⟩ | ⟨slot, inTable, free, _, mgr, taken, done⟩
    · obtain ⟨rfl, _⟩ :=
        Prod.mk.inj (Option.some.inj (done.symm.trans mapped))
      exact absurd rfl nonzero
    · obtain ⟨rfl, rfl⟩ :=
        Prod.mk.inj (Option.some.inj (done.symm.trans mapped))
      refine ⟨slot, inTable, rfl, (slots.counted_eq_zero inTable).mpr free, ?_⟩
      exact (taken.counted_eq_one inTable).mpr (Function.update_self ..)
  · intro request next allowed performed slot inTable live another
    obtain ⟨_, after, done, kept, others⟩ := invariant.call request allowed
    obtain rfl := Option.some.inj (done.symm.trans performed)
    obtain ⟨stillUsed, latest, entry⟩ :=
      others slot inTable ((slots.counted_eq_one inTable).mp live) another
    exact ⟨(kept.slots.counted_eq_one inTable).mpr stillUsed, latest, entry⟩
  · intro page aligned
    constructor
    · rintro ⟨next, failed⟩ slot inTable zero
      rcases tempMapPage_cases invariant.paging slots page with
        ⟨_, full⟩ | ⟨other, otherInTable, _, _, _, _, done⟩
      · have inUse := full aligned slot inTable
        rw [(slots.counted_eq_zero inTable).mp zero] at inUse
        cases inUse
      · have zeroAddr := congrArg Prod.fst
          (Option.some.inj (done.symm.trans failed))
        exact windowAddr_ne_zero otherInTable zeroAddr
    · intro full
      refine ⟨run.state, tempMapPage_full slots (fun slot inTable => ?_)
        aligned⟩
      cases inUse : used slot with
      | true => rfl
      | false =>
          exact absurd ((slots.counted_eq_zero inTable).mpr inUse)
            (full slot inTable)
  · intro page next failed
    rcases tempMapPage_cases invariant.paging slots page with
      ⟨done, _⟩ | ⟨slot, inTable, _, _, _, _, done⟩
    · exact (congrArg Prod.snd
        (Option.some.inj (failed.symm.trans done)))
    · have zeroAddr := congrArg Prod.fst
        (Option.some.inj (done.symm.trans failed))
      exact absurd zeroAddr (windowAddr_ne_zero inTable)

/-- The kernel that the loader starts meets the assumptions. -/
theorem tempInitial_bootKernel
    (mem : Memory) {pageDirectory : Nat} (modules : List ModuleInfo)
    (aligned : 2 ^ 12 ∣ pageDirectory)
    (inRange : pageDirectory + 34 * 4096 ≤ 2 ^ 32) :
    TempInitial (bootKernel mem pageDirectory modules) pageDirectory
      (firstPageTable pageDirectory) where
  initialised := rfl
  paging := kernelPaging_loaderTables mem aligned inRange
  dirAligned := aligned
  tableApart := by
    have first : firstPageTable pageDirectory = pageDirectory + 4096 := rfl
    have apart : firstPageTable pageDirectory ≠ pageDirectory := by omega
    exact ⟨apart, apart⟩

/-- A page is mapped after boot. -/
theorem tempReachable_contract_boot :
    ∃ run : TempRun, run.latest (windowAddr 0) = some 0x1900000 ∧
      TempContract run := by
  have initial := tempInitial_bootKernel (fun _ => 0) []
    (show 2 ^ 12 ∣ 0x110000 by omega) (by omega)
  obtain ⟨mgr, done, _⟩ := initial.windows.map (show 0 < 4 by omega) rfl
    (fun _ below => absurd below (Nat.not_lt_zero _))
    (show 2 ^ 12 ∣ 0x1900000 by omega) (by omega)
  have performed := TempCall.perform_map_of_eq (fun _ => none) done
    (windowAddr_ne_zero (by decide))
  have inWord : 0x1900000 < 2 ^ 32 := by omega
  exact ⟨_, Function.update_self (windowAddr 0) (some 0x1900000) fun _ => none,
    tempReachable_contract initial
      (.call (.map 0x1900000) .init inWord performed)⟩

end MatrixOS
