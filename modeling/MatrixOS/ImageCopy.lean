import MatrixOS.AddressSpace

namespace MatrixOS

open ByteMemory Paging StateOption

/-!
# The copy of the program image

`vmm_load_user_program` copies the whole image through two windows of one page
each.  An image of at most a page is copied exactly.  A longer one runs over
the end of both windows; then the pages behind them decide what is written.
-/

/-! ## The two windows of the copy -/

/-- The windows during the copy. -/
def imageFrames (start code : Nat) : Nat → Option Nat :=
  Function.update (Function.update (fun _ => none) 0 (some start))
    1 (some code)

/-- `temp_unmap_page(temp_src)` and `temp_unmap_page(temp_dst)`. -/
def unmapImage : Kernel Unit := do
  tempUnmapPage (windowAddr 0)
  tempUnmapPage (windowAddr 1)

section ImageWindows

variable {state : KernelState} {kernelDir windowTable start code : Nat}

theorem imageFrames_src : imageFrames start code 0 = some start := by
  simp [imageFrames]

theorem imageFrames_dst : imageFrames start code 1 = some code := by
  simp [imageFrames]

/-- Unmapping both windows leaves none in use. -/
theorem imageFrames_unmapped :
    Function.update (Function.update (imageFrames start code) 0 none) 1 none =
      fun _ => none := by
  funext slot
  simp only [imageFrames, Function.update_apply]
  split_ifs <;> rfl

/-- The copy after both pages have been mapped. -/
theorem Windows.mapImage
    (windows : Windows state kernelDir windowTable fun _ => none)
    (startAligned : 2 ^ 12 ∣ start)
    (startInRange : start + 2 ^ 12 ≤ 2 ^ 32)
    (codeAligned : 2 ^ 12 ∣ code)
    (codeInRange : code + 2 ^ 12 ≤ 2 ^ 32)
    (size : Nat) :
    ∃ mem mgr,
      MatrixOS.copyUserProgram start code size state =
        (MatrixOS.memcpy virtualAccess (windowAddr 1) (windowAddr 0) size >>=
          fun _ => unmapImage) (state.withMapping mem mgr) ∧
      Windows (state.withMapping mem mgr) kernelDir windowTable
        (imageFrames start code) ∧
      SameOffWindows windowTable mem state.mem := by
  have first : 0 < tempMappingCount := by decide
  have second : 1 < tempMappingCount := by decide
  obtain ⟨srcMgr, srcMapped, srcWindows⟩ := windows.map first rfl
    (fun _ below => absurd below (Nat.not_lt_zero _))
    startAligned startInRange
  obtain ⟨dstMgr, dstMapped, dstWindows⟩ := srcWindows.map second rfl
    (fun lower below => by
      obtain rfl : lower = 0 := by omega
      simp)
    codeAligned codeInRange
  refine ⟨_, dstMgr, ?_, dstWindows, ?_⟩
  · rw [MatrixOS.copyUserProgram, bind_of_eq srcMapped, bind_of_eq dstMapped]
    rfl
  · exact (SameOffWindows.windowEntry _ second _).trans
      (SameOffWindows.windowEntry _ first _)

theorem Windows.unmapImage
    (windows : Windows state kernelDir windowTable (imageFrames start code)) :
    ∃ mem mgr,
      MatrixOS.unmapImage state = some ((), state.withMapping mem mgr) ∧
      Windows (state.withMapping mem mgr) kernelDir windowTable
        (fun _ => none) ∧
      SameOffWindows windowTable mem state.mem := by
  have first : 0 < tempMappingCount := by decide
  have second : 1 < tempMappingCount := by decide
  obtain ⟨srcMgr, srcUnmapped, dstWindow⟩ :=
    windows.unmap first (by simp [imageFrames_src])
  obtain ⟨lastMgr, dstUnmapped, lastWindows⟩ :=
    dstWindow.unmap second (by simp [imageFrames_dst])
  rw [imageFrames_unmapped] at lastWindows
  refine ⟨_, lastMgr, ?_, lastWindows, ?_⟩
  · rw [MatrixOS.unmapImage, bind_of_eq srcUnmapped]
    exact dstUnmapped
  · exact (SameOffWindows.windowEntry _ second _).trans
      (SameOffWindows.windowEntry _ first _)

end ImageWindows

/-! ## Copies that fit a page -/

/-- Copying an image of at most a page. -/
theorem Windows.copyUserProgram
    {state : KernelState} {kernelDir windowTable start code size : Nat}
    (windows : Windows state kernelDir windowTable fun _ => none)
    (startClear : Clear state.cr3 kernelDir windowTable start)
    (startInRange : start + 2 ^ 12 ≤ 2 ^ 32)
    (codeClear : Clear state.cr3 kernelDir windowTable code)
    (codeInRange : code + 2 ^ 12 ≤ 2 ^ 32)
    (different : start ≠ code)
    (inPage : size ≤ pageSize) :
    ∃ mem mgr,
      MatrixOS.copyUserProgram start code size state =
        some ((), state.withMapping mem mgr) ∧
      Windows (state.withMapping mem mgr) kernelDir windowTable
        (fun _ => none) ∧
      SameOffWindows windowTable mem (transfer state.mem code start size) := by
  obtain ⟨mappedMem, mappedMgr, mapped, mappedWindows, mappedSame⟩ :=
    windows.mapImage startClear.aligned startInRange codeClear.aligned
      codeInRange size
  have copied := mappedWindows.memcpy codeClear (by decide) imageFrames_dst
    (by decide) imageFrames_src startClear.aligned different inPage
  obtain ⟨mem, mgr, unmapped, lastWindows, same⟩ :=
    (mappedWindows.withTransfer codeClear inPage start).unmapImage
  refine ⟨mem, mgr, ?_, lastWindows, same.trans ?_⟩
  · rw [mapped, bind_of_eq copied]
    exact unmapped
  · exact SameOffWindows.transfer windows.windowTable_aligned
      startClear.aligned startClear.windowTable mappedSame code inPage

/-! ## Copies that run over the windows -/

/--
One byte more than a page: it is read behind the source window and written to
the first byte of the source itself.
-/
theorem Windows.copyUserProgram_overrun
    {state : KernelState} {kernelDir windowTable start code : Nat}
    (windows : Windows state kernelDir windowTable fun _ => none)
    (startClear : Clear state.cr3 kernelDir windowTable start)
    (startInRange : start + 2 ^ 12 ≤ 2 ^ 32)
    (codeClear : Clear state.cr3 kernelDir windowTable code)
    (codeInRange : code + 2 ^ 12 ≤ 2 ^ 32)
    (different : start ≠ code)
    {table page : Nat}
    (behindTable : PointsTo state.mem state.cr3 769 table)
    (behindPage : PointsTo state.mem table 0 page)
    (tableApart : table ≠ windowTable ∧ table ≠ code) :
    Returns (MatrixOS.copyUserProgram start code (pageSize + 1)) state
      fun _ _ => True := by
  obtain ⟨mappedMem, mappedMgr, mapped, mappedWindows, mappedSame⟩ :=
    windows.mapImage startClear.aligned startInRange codeClear.aligned
      codeInRange (pageSize + 1)
  have copied := mappedWindows.memcpy codeClear (by decide) imageFrames_dst
    (by decide) imageFrames_src startClear.aligned different (Nat.le_refl _)
  have copiedWindows :=
    mappedWindows.withTransfer codeClear (Nat.le_refl _) start
  have kept : ∀ frame, 2 ^ 12 ∣ frame → frame ≠ windowTable → frame ≠ code →
      Agree frame pageSize (transfer mappedMem code start pageSize)
        state.mem := by
    intro frame aligned notWindows notCode
    have apart := frames_apart aligned codeClear.aligned notCode
    exact (agree_transfer (by omega)).trans
      (SameOffWindows.agree windows.windowTable_aligned aligned notWindows
        mappedSame)
  have dirEntry := behindTable.congr (Windows.entry_agree (by omega)
    (kept _ windows.dirAligned windows.tableApart.1.symm codeClear.dir.symm))
  have tableEntry := behindPage.congr (Windows.entry_agree (by omega)
    (kept _ behindTable.frame_lt.2 tableApart.1 tableApart.2))
  have readPtr : wrap32 (windowAddr 0 + pageSize) = 0xC0400000 := by decide
  have writePtr : wrap32 (windowAddr 1 + pageSize) =
      wrap32 (windowAddr 0 + 0) := by decide
  have read : ((state.withMapping mappedMem mappedMgr).withMem
      (transfer mappedMem code start pageSize)).resolve
        (wrap32 (windowAddr 0 + pageSize)) = some (page + 0) := by
    rw [readPtr]
    exact walk_of_pointsTo dirEntry tableEntry
  have write := copiedWindows.resolve (by decide) imageFrames_src
    (show 0 < pageSize by decide)
  rw [← writePtr] at write
  have lastWindows : Windows (((state.withMapping mappedMem mappedMgr).withMem
      (transfer mappedMem code start pageSize)).withMem
        (Function.update (transfer mappedMem code start pageSize) (start + 0)
          (transfer mappedMem code start pageSize (page + 0))))
      kernelDir windowTable (imageFrames start code) := by
    refine copiedWindows.withFrame startClear fun address outside =>
      Function.update_of_ne (fun isFirst => outside ?_) _ _
    rw [isFirst]
    exact ⟨Nat.le_refl _, by simp only [pageSize]; omega⟩
  obtain ⟨mem, mgr, unmapped, _⟩ := lastWindows.unmapImage
  rw [Returns, mapped]
  refine Returns.step (?_ : _ = some ((), _))
    (Returns.of_eq unmapped trivial)
  refine (bind_of_eq copied).trans ?_
  exact (bind_of_eq (load8_of_resolve read)).trans (store8_of_resolve write _)

section Bytes

variable {state : KernelState} {ptr : Nat}

theorem load8_ensures :
    Ensures (load8 ptr) state fun _ next => next = state := by
  intro byte next run
  obtain ⟨addr, _, same⟩ := Option.map_eq_some_iff.mp run
  exact (congrArg Prod.snd same).symm

theorem store8_ensures (byte : UInt8) :
    Ensures (store8 ptr byte) state fun _ next =>
      ∃ addr, state.resolve ptr = some addr ∧
        next = state.withMem (Function.update state.mem addr byte) := by
  intro result next run
  obtain ⟨addr, leads, same⟩ := Option.map_eq_some_iff.mp run
  exact ⟨addr, leads, (congrArg Prod.snd same).symm⟩

end Bytes

/--
A copy keeps a part of memory as long as the part is enough to know that no
destination pointer leads into it, up to one that leads nowhere.
-/
theorem memcpy_keeps
    {state : KernelState} {dest src size : Nat}
    (kept : Nat → Prop)
    (limit : Nat)
    (lands : ∀ mem, (∀ addr, kept addr → mem addr = state.mem addr) →
      ∀ i < limit, ∀ addr,
        (state.withMem mem).resolve (wrap32 (dest + i)) = some addr →
        ¬ kept addr)
    (ends : ∀ mem, (∀ addr, kept addr → mem addr = state.mem addr) →
      limit < size →
        (state.withMem mem).resolve (wrap32 (dest + limit)) = none) :
    Ensures (memcpy virtualAccess dest src size) state fun _ next =>
      ∃ mem, next = state.withMem mem ∧
        ∀ addr, kept addr → mem addr = state.mem addr := by
  suffices copies : ∀ num ≤ size,
      Ensures (memcpy virtualAccess dest src num) state fun _ next =>
        num ≤ limit ∧ ∃ mem, next = state.withMem mem ∧
          ∀ addr, kept addr → mem addr = state.mem addr from
    (copies size (Nat.le_refl _)).mono fun _ _ result => result.2
  intro num
  induction num with
  | zero =>
      intro _
      exact Ensures.pure ⟨Nat.zero_le _, state.mem, rfl, fun _ _ => rfl⟩
  | succ i inductionHypothesis =>
      intro inSize
      refine (inductionHypothesis (by omega)).bind ?_
      rintro _ _ ⟨below, mem, rfl, same⟩
      refine load8_ensures.bind ?_
      rintro byte _ rfl
      refine (store8_ensures byte).mono ?_
      rintro _ _ ⟨addr, leads, rfl⟩
      have inLimit : i < limit := by
        refine Nat.lt_of_le_of_ne below fun last => ?_
        subst last
        rw [ends mem same (by omega)] at leads
        cases leads
      refine ⟨inLimit, _, rfl, fun other isKept => ?_⟩
      have different : other ≠ addr := by
        rintro rfl
        exact lands mem same i inLimit _ leads isKept
      rw [KernelState.withMem_mem, Function.update_of_ne different]
      exact same other isKept

/-- An address in one of the frames. -/
def InFrames (frames : List Nat) (addr : Nat) : Prop :=
  ∃ frame ∈ frames, InRange frame pageSize addr

theorem not_inFrames
    {frames : List Nat} {page offset : Nat}
    (aligned : ∀ frame ∈ frames, 2 ^ 12 ∣ frame)
    (pageAligned : 2 ^ 12 ∣ page)
    (apart : page ∉ frames)
    (inPage : offset < pageSize) :
    ¬ InFrames frames (page + offset) := by
  rintro ⟨frame, member, inside⟩
  have different : page ≠ frame := by
    rintro rfl
    exact apart member
  have pages := frames_apart pageAligned (aligned frame member) different
  simp only [InRange] at inside
  omega

/-- The memories hold the same bytes in the frames. -/
def SameInFrames (frames : List Nat) (left right : Memory) : Prop :=
  ∀ addr, InFrames frames addr → left addr = right addr

theorem SameInFrames.agree
    {frames : List Nat} {left right : Memory} {frame : Nat}
    (same : SameInFrames frames left right)
    (member : frame ∈ frames) :
    Agree frame pageSize left right :=
  fun addr inside => same addr ⟨frame, member, inside⟩

/--
What a copy of `size` bytes can reach behind the windows: at most the first
`pages` pages there, and through them none of the frames.
-/
structure Contained
    (mem : Memory) (dir : Nat) (frames : List Nat) (pages size : Nat) :
    Prop where
  bound : pages < 1024
  lands : ∀ changed, SameInFrames frames changed mem →
    ∀ offset < pages * pageSize, ∀ addr,
      walk changed dir (0xC0400000 + offset) = some addr →
      ¬ InFrames frames addr
  ends : ∀ changed, SameInFrames frames changed mem →
    (2 + pages) * pageSize < size →
      walk changed dir (0xC0400000 + pages * pageSize) = none

/-- Two pages do not reach behind the windows. -/
theorem contained_of_le
    {mem : Memory} {dir size : Nat} {frames : List Nat}
    (short : size ≤ 2 * pageSize) :
    Contained mem dir frames 0 size where
  bound := by decide
  lands := fun _ _ offset below => absurd below (by simp)
  ends := fun _ _ overrun => absurd overrun (by omega)

/--
The kernel has mapped nothing behind the windows, or only the first pages of
one table.  All of these frames are `apart`.
-/
inductive BehindWindows (mem : Memory) (dir : Nat) (apart : Nat → Prop) : Prop
  | unmapped (missing : present (entryAt mem dir 769) = false)
  | mapped
      (table pages : Nat)
      (leads : PointsTo mem dir 769 table)
      (bound : pages < 1024)
      (ends : present (entryAt mem table pages) = false)
      (tableApart : apart table)
      (pagesApart : ∀ index < pages, ∀ frame,
        PointsTo mem table index frame → frame ≠ table ∧ apart frame)

section Behind

variable {mem changed : Memory} {dir : Nat} {apart farther : Nat → Prop}

/-- The mappings behind the windows, reached through another directory. -/
theorem BehindWindows.transport
    {changedDir : Nat}
    (behind : BehindWindows mem dir apart)
    (dirEntry : entryAt changed changedDir 769 = entryAt mem dir 769)
    (tableKept : ∀ table, apart table → PointsTo mem dir 769 table →
      Agree table pageSize changed mem)
    (implies : ∀ frame, apart frame → farther frame) :
    BehindWindows changed changedDir farther := by
  cases behind with
  | unmapped missing =>
      exact .unmapped (dirEntry ▸ missing)
  | mapped table pages leads bound ends tableApart pagesApart =>
      have entry : ∀ index < 1024,
          entryAt changed table index = entryAt mem table index :=
        fun index inTable => load_congr (Windows.entry_agree inTable
          (tableKept table tableApart leads))
      refine .mapped table pages ?_ bound ?_ (implies table tableApart) ?_
      · rw [PointsTo, dirEntry]
        exact leads
      · rw [entry pages bound]
        exact ends
      · intro index below frame points
        rw [PointsTo, entry index (by omega)] at points
        obtain ⟨different, frameApart⟩ := pagesApart index below frame points
        exact ⟨different, implies frame frameApart⟩

/-- The mappings behind the windows are kept with their tables. -/
theorem BehindWindows.congr
    (behind : BehindWindows mem dir apart)
    (dirKept : Agree dir pageSize changed mem)
    (tableKept : ∀ table, apart table → 2 ^ 12 ∣ table →
      Agree table pageSize changed mem)
    (implies : ∀ frame, apart frame → farther frame) :
    BehindWindows changed dir farther :=
  behind.transport (load_congr (Windows.entry_agree (by omega) dirKept))
    (fun table tableApart leads => tableKept table tableApart leads.frame_lt.2)
    implies

/-- The table behind the windows is apart. -/
theorem BehindWindows.table_apart
    (behind : BehindWindows mem dir apart)
    {table : Nat}
    (points : PointsTo mem dir 769 table) :
    apart table := by
  cases behind with
  | unmapped missing =>
      rw [PointsTo, missing] at points
      exact absurd points.1 Bool.false_ne_true
  | mapped behindTable pages leads bound ends tableApart pagesApart =>
      obtain rfl := points.2.symm.trans leads.2
      exact tableApart

/-- An address behind the windows is in a page of the table behind them. -/
theorem pointsTo_of_walk_behind
    {table offset addr : Nat}
    (leads : PointsTo mem dir 769 table)
    (below : offset < 2 ^ 22)
    (found : walk mem dir (0xC0400000 + offset) = some addr) :
    ∃ frame, PointsTo mem table (offset / 2 ^ 12) frame ∧
      addr = frame + (0xC0400000 + offset) % 2 ^ 12 := by
  obtain ⟨_, frame, dirEntry, tableEntry, sum⟩ := pointsTo_of_walk found
  have dirIndex : (0xC0400000 + offset) / 2 ^ 22 = 769 := by omega
  have tabIndex : (0xC0400000 + offset) / 2 ^ 12 % 2 ^ 10 =
      offset / 2 ^ 12 := by omega
  rw [dirIndex] at dirEntry
  rw [tabIndex] at tableEntry
  obtain rfl := dirEntry.2.symm.trans leads.2
  exact ⟨frame, tableEntry, sum⟩

/-- A page without an entry in the table behind the windows is not mapped. -/
theorem walk_behind_missing
    {table page : Nat}
    (leads : PointsTo mem dir 769 table)
    (bound : page < 1024)
    (missing : present (entryAt mem table page) = false) :
    walk mem dir (0xC0400000 + page * pageSize) = none := by
  have dirIndex : (0xC0400000 + page * pageSize) / 2 ^ 22 = 769 := by
    simp only [pageSize]
    omega
  have tabIndex : (0xC0400000 + page * pageSize) / 2 ^ 12 % 2 ^ 10 = page := by
    simp only [pageSize]
    omega
  rw [walk, translate_of_table_not_present]
  · rfl
  · rw [dirIndex, tabIndex, leads.2]
    exact missing

/-- What is kept apart from the mappings behind the windows. -/
theorem BehindWindows.contained
    (behind : BehindWindows mem dir apart)
    {frames : List Nat}
    (dirKept : dir ∈ frames)
    (aligned : ∀ frame ∈ frames, 2 ^ 12 ∣ frame)
    (separate : ∀ frame, apart frame → frame ∉ frames)
    (size : Nat) :
    ∃ tables pages,
      (∀ table ∈ tables, 2 ^ 12 ∣ table ∧ apart table) ∧
      (∀ table, PointsTo mem dir 769 table → table ∈ tables) ∧
      Contained mem dir (tables ++ frames) pages size := by
  cases behind with
  | unmapped missing =>
      refine ⟨[], 0, by simp, ?_, by decide, ?_, ?_⟩
      · rintro table ⟨isPresent, _⟩
        rw [missing] at isPresent
        cases isPresent
      · intro changed same offset below
        exact absurd below (by simp)
      · intro changed same overrun
        have entry : entryAt changed dir 769 = entryAt mem dir 769 :=
          load_congr (Windows.entry_agree (by omega) (same.agree dirKept))
        rw [walk, translate_of_not_present (entry ▸ missing)]
        rfl
  | mapped table pages leads bound ends tableApart pagesApart =>
      have tableAligned := leads.frame_lt.2
      refine ⟨[table], pages, ?_, ?_, bound, ?_, ?_⟩
      · intro frame member
        obtain rfl := List.mem_singleton.mp member
        exact ⟨tableAligned, tableApart⟩
      · intro other points
        exact List.mem_singleton.mpr (points.2.symm.trans leads.2)
      · intro changed same offset below addr found
        simp only [pageSize] at below
        have dirSame := same.agree (List.mem_append_right _ dirKept)
        have tableSame := same.agree (show table ∈ [table] ++ frames by simp)
        obtain ⟨frame, tableEntry, rfl⟩ := pointsTo_of_walk_behind
          (leads.congr (Windows.entry_agree (by omega) dirSame))
          (by omega) found
        obtain ⟨different, frameApart⟩ := pagesApart (offset / 2 ^ 12)
          (by omega) frame
          (tableEntry.congr (Windows.entry_agree (by omega) tableSame.symm))
        refine not_inFrames ?_ tableEntry.frame_lt.2 ?_
          (Nat.mod_lt _ (by decide))
        · intro kept member
          rcases List.mem_append.mp member with isTable | isFrame
          · obtain rfl := List.mem_singleton.mp isTable
            exact tableAligned
          · exact aligned kept isFrame
        · intro member
          rcases List.mem_append.mp member with isTable | isFrame
          · exact different (List.mem_singleton.mp isTable)
          · exact separate frame frameApart isFrame
      · intro changed same overrun
        have dirSame := same.agree (List.mem_append_right _ dirKept)
        have tableSame := same.agree (show table ∈ [table] ++ frames by simp)
        refine walk_behind_missing
          (leads.congr (Windows.entry_agree (by omega) dirSame)) bound ?_
        rw [← ends]
        exact congrArg present
          (load_congr (Windows.entry_agree bound tableSame))

end Behind

/-- The copy keeps every frame that is kept apart from what it can reach. -/
theorem Windows.memcpy_keeps
    {state : KernelState} {kernelDir windowTable start code : Nat}
    {used : Nat → Option Nat} {frames : List Nat} {pages size : Nat}
    (windows : Windows state kernelDir windowTable used)
    (srcUsed : used 0 = some start)
    (dstUsed : used 1 = some code)
    (startAligned : 2 ^ 12 ∣ start)
    (codeAligned : 2 ^ 12 ∣ code)
    (tables : state.cr3 ∈ frames ∧ kernelDir ∈ frames ∧ windowTable ∈ frames)
    (aligned : ∀ frame ∈ frames, 2 ^ 12 ∣ frame)
    (startApart : start ∉ frames)
    (codeApart : code ∉ frames)
    (contained : Contained state.mem state.cr3 frames pages size) :
    Ensures
      (MatrixOS.memcpy virtualAccess (windowAddr 1) (windowAddr 0) size) state
      fun _ next => ∃ mem, next = state.withMem mem ∧
        SameInFrames frames mem state.mem := by
  have addr : windowAddr 1 = 0xC03FE000 := rfl
  have firstAddr : windowAddr 0 = 0xC03FF000 := rfl
  have page : pageSize = 4096 := rfl
  have bound := contained.bound
  refine MatrixOS.memcpy_keeps (InFrames frames) ((2 + pages) * pageSize) ?_ ?_
  · intro mem (same : SameInFrames frames mem state.mem) i below target leads
    have kept := windows.withMem (same.agree tables.1)
      (same.agree tables.2.1) (same.agree tables.2.2)
    rcases Nat.lt_or_ge i pageSize with inDst | pastDst
    · -- the page of the destination window
      rw [kept.resolve (by decide) dstUsed inDst] at leads
      obtain rfl := Option.some.inj leads
      exact not_inFrames aligned codeAligned codeApart inDst
    rcases Nat.lt_or_ge (i - pageSize) pageSize with inSrc | pastSrc
    · -- the window above it is the source window
      have next : windowAddr 1 + i = windowAddr 0 + (i - pageSize) := by omega
      rw [next, kept.resolve (by decide) srcUsed inSrc] at leads
      obtain rfl := Option.some.inj leads
      exact not_inFrames aligned startAligned startApart inSrc
    · rw [page] at below
      have next : windowAddr 1 + i = 0xC0400000 + (i - 2 * pageSize) := by omega
      rw [next, wrap32_of_lt (by omega)] at leads
      exact contained.lands mem same _ (by rw [page]; omega) target leads
  · intro mem same overrun
    have next : windowAddr 1 + (2 + pages) * pageSize =
        0xC0400000 + pages * pageSize := by
      rw [page]
      omega
    rw [next, wrap32_of_lt (by rw [page]; omega)]
    exact contained.ends mem same overrun

/-- The tables behind the windows and some other frames. -/
def tableFrames (dir kernelDir windowTable : Nat) (kept : List Nat) : List Nat :=
  dir :: kernelDir :: windowTable :: kept

theorem not_mem_tableFrames
    {dir kernelDir windowTable frame : Nat} {kept : List Nat}
    (clear : Windows.Clear dir kernelDir windowTable frame)
    (apart : frame ∉ kept) :
    frame ∉ tableFrames dir kernelDir windowTable kept := by
  simp [tableFrames, clear.dir, clear.kernelDir, clear.windowTable, apart]

/-- Frames that the copy keeps, the tables behind the windows among them. -/
structure KeptByCopy
    (mem : Memory) (dir kernelDir windowTable start code pages size : Nat)
    (frames : List Nat) : Prop where
  tables : dir ∈ frames ∧ kernelDir ∈ frames ∧ windowTable ∈ frames
  aligned : ∀ frame ∈ frames, 2 ^ 12 ∣ frame
  startApart : start ∉ frames
  codeApart : code ∉ frames
  contained : Contained mem dir frames pages size

section Kept

variable {state : KernelState} {kernelDir windowTable start code size : Nat}
variable {kept : List Nat}

theorem keptByCopy
    (mem : Memory)
    (windows : Windows state kernelDir windowTable fun _ => none)
    (startClear : Windows.Clear state.cr3 kernelDir windowTable start)
    (codeClear : Windows.Clear state.cr3 kernelDir windowTable code)
    (aligned : ∀ frame ∈ kept, 2 ^ 12 ∣ frame)
    (startApart : start ∉ kept)
    (codeApart : code ∉ kept)
    (behind : 2 * pageSize < size →
      BehindWindows mem state.cr3 fun frame =>
        Windows.Clear state.cr3 kernelDir windowTable frame ∧
          frame ≠ start ∧ frame ≠ code ∧ frame ∉ kept) :
    ∃ frames pages,
      KeptByCopy mem state.cr3 kernelDir windowTable start code pages size
        frames ∧
      (∀ frame ∈ kept, frame ∈ frames) ∧
      (2 * pageSize < size → ∀ table, PointsTo mem state.cr3 769 table →
        table ∈ frames ∧ table ≠ windowTable) := by
  let frames := tableFrames state.cr3 kernelDir windowTable kept
  have tables :
      state.cr3 ∈ frames ∧ kernelDir ∈ frames ∧ windowTable ∈ frames := by
    simp [frames, tableFrames]
  have framesAligned : ∀ frame ∈ frames, 2 ^ 12 ∣ frame := by
    simp only [frames, tableFrames, List.forall_mem_cons]
    exact ⟨windows.dirAligned, windows.kernelDir_aligned,
      windows.windowTable_aligned, aligned⟩
  have startFrames := not_mem_tableFrames startClear startApart
  have codeFrames := not_mem_tableFrames codeClear codeApart
  have keptFrames : ∀ frame ∈ kept, frame ∈ frames := by
    intro frame member
    simp [frames, tableFrames, member]
  rcases Nat.lt_or_ge (2 * pageSize) size with long | short
  · obtain ⟨more, pages, moreApart, moreTables, contained⟩ :=
      (behind long).contained tables.1 framesAligned
        (fun frame apart => not_mem_tableFrames apart.1 apart.2.2.2) size
    refine ⟨more ++ frames, pages, ⟨?_, ?_, ?_, ?_, contained⟩, ?_, ?_⟩
    · exact ⟨List.mem_append_right _ tables.1,
        List.mem_append_right _ tables.2.1,
        List.mem_append_right _ tables.2.2⟩
    · exact List.forall_mem_append.mpr
        ⟨fun table member => (moreApart table member).1, framesAligned⟩
    · intro member
      rcases List.mem_append.mp member with isMore | isFrame
      · exact (moreApart start isMore).2.2.1 rfl
      · exact startFrames isFrame
    · intro member
      rcases List.mem_append.mp member with isMore | isFrame
      · exact (moreApart code isMore).2.2.2.1 rfl
      · exact codeFrames isFrame
    · exact fun frame member =>
        List.mem_append_right _ (keptFrames frame member)
    · intro _ table points
      have member := moreTables table points
      exact ⟨List.mem_append_left _ member,
        (moreApart table member).2.1.windowTable⟩
  · exact ⟨frames, 0, ⟨tables, framesAligned, startFrames, codeFrames,
      contained_of_le short⟩, keptFrames, fun long => absurd long (by omega)⟩

/-- An image of any size leaves the frames that it cannot reach. -/
theorem Windows.copyUserProgram_keeps
    (windows : Windows state kernelDir windowTable fun _ => none)
    (startClear : Clear state.cr3 kernelDir windowTable start)
    (startInRange : start + 2 ^ 12 ≤ 2 ^ 32)
    (codeClear : Clear state.cr3 kernelDir windowTable code)
    (codeInRange : code + 2 ^ 12 ≤ 2 ^ 32)
    (aligned : ∀ frame ∈ kept, 2 ^ 12 ∣ frame)
    (startApart : start ∉ kept)
    (codeApart : code ∉ kept)
    (behind : 2 * pageSize < size →
      BehindWindows state.mem state.cr3 fun frame =>
        Clear state.cr3 kernelDir windowTable frame ∧
          frame ≠ start ∧ frame ≠ code ∧ frame ∉ kept) :
    Ensures (MatrixOS.copyUserProgram start code size) state fun _ next =>
      ∃ mem mgr, next = state.withMapping mem mgr ∧
        Windows next kernelDir windowTable (fun _ => none) ∧
        (∀ frame ∈ kept, frame ≠ windowTable →
          Agree frame pageSize mem state.mem) ∧
        (2 * pageSize < size → ∀ table, PointsTo state.mem state.cr3 769 table →
          Agree table pageSize mem state.mem) := by
  obtain ⟨mappedMem, mappedMgr, mapped, mappedWindows, mappedSame⟩ :=
    windows.mapImage startClear.aligned startInRange codeClear.aligned
      codeInRange size
  have agree : ∀ {left right : Memory}, SameOffWindows windowTable left right →
      ∀ frame, 2 ^ 12 ∣ frame → frame ≠ windowTable →
        Agree frame pageSize left right :=
    fun same frame frameAligned different =>
      SameOffWindows.agree windows.windowTable_aligned frameAligned different
        same
  have dirSame :=
    agree mappedSame _ windows.dirAligned windows.tableApart.1.symm
  obtain ⟨frames, pages, keeps, keptFrames, keptTable⟩ :=
    keptByCopy mappedMem windows startClear codeClear aligned startApart
      codeApart fun long => (behind long).congr dirSame
        (fun table apart tableAligned =>
          agree mappedSame table tableAligned apart.1.windowTable)
        (fun _ apart => apart)
  have copies := mappedWindows.memcpy_keeps imageFrames_src imageFrames_dst
    startClear.aligned codeClear.aligned keeps.tables keeps.aligned
    keeps.startApart keeps.codeApart keeps.contained
  have whole : Ensures
      (MatrixOS.memcpy virtualAccess (windowAddr 1) (windowAddr 0) size >>=
        fun _ => MatrixOS.unmapImage) (state.withMapping mappedMem mappedMgr)
      fun _ next => ∃ mem mgr, next = state.withMapping mem mgr ∧
        Windows next kernelDir windowTable (fun _ => none) ∧
        (∀ frame ∈ kept, frame ≠ windowTable →
          Agree frame pageSize mem state.mem) ∧
        (2 * pageSize < size → ∀ table, PointsTo state.mem state.cr3 769 table →
          Agree table pageSize mem state.mem) := by
    refine copies.bind ?_
    rintro _ _ ⟨copiedMem, rfl, same⟩
    have copiedWindows := mappedWindows.withMem (same.agree keeps.tables.1)
      (same.agree keeps.tables.2.1) (same.agree keeps.tables.2.2)
    obtain ⟨mem, mgr, unmapped, lastWindows, unmappedSame⟩ :=
      copiedWindows.unmapImage
    have kept : ∀ frame ∈ frames, 2 ^ 12 ∣ frame → frame ≠ windowTable →
        Agree frame pageSize mem state.mem :=
      fun frame member frameAligned different =>
        ((agree unmappedSame frame frameAligned different).trans
          (same.agree member)).trans
            (agree mappedSame frame frameAligned different)
    refine Ensures.of_eq unmapped ⟨mem, mgr, rfl, lastWindows, ?_, ?_⟩
    · intro frame member different
      exact kept frame (keptFrames frame member) (aligned frame member)
        different
    · intro long table points
      obtain ⟨member, different⟩ := keptTable long table
        (points.congr (Windows.entry_agree (by omega) dirSame))
      exact kept table member points.frame_lt.2 different
  intro value next run
  exact whole value next (mapped ▸ run)

end Kept

end MatrixOS
