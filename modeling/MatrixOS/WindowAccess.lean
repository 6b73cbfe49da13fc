import MatrixOS.TempWindows

namespace MatrixOS

open ByteMemory Paging StateOption

/-!
# Memory accesses through windows

Each program of the memory manager has the effect of a function on physical
memory, up to the table entries of the windows.
-/

/-! ## Up to the windows -/

/-- The memories differ at most in the table entries of the windows. -/
def SameOffWindows (windowTable : Nat) (left right : Memory) : Prop :=
  ∀ address, ¬ InRange (entryAddr windowTable 1020) 16 address →
    left address = right address

namespace SameOffWindows

variable {windowTable : Nat} {left middle right : Memory}

theorem refl (mem : Memory) : SameOffWindows windowTable mem mem :=
  fun _ _ => rfl

theorem symm (same : SameOffWindows windowTable left right) :
    SameOffWindows windowTable right left :=
  fun address outside => (same address outside).symm

theorem trans
    (earlier : SameOffWindows windowTable left middle)
    (later : SameOffWindows windowTable middle right) :
    SameOffWindows windowTable left right :=
  fun address outside =>
    (earlier address outside).trans (later address outside)

theorem store
    (same : SameOffWindows windowTable left right)
    (width address value : Nat) :
    SameOffWindows windowTable (ByteMemory.store left width address value)
      (ByteMemory.store right width address value) := by
  intro target outside
  by_cases inside : InRange address width target
  · simp only [ByteMemory.store, inside, ↓reduceIte]
  · rw [store_of_not_inRange inside, store_of_not_inRange inside]
    exact same target outside

theorem fill
    (same : SameOffWindows windowTable left right)
    (first count : Nat)
    (byte : UInt8) :
    SameOffWindows windowTable (ByteMemory.fill left first count byte)
      (ByteMemory.fill right first count byte) := by
  intro target outside
  by_cases inside : InRange first count target
  · rw [fill_of_inRange inside, fill_of_inRange inside]
  · rw [fill_of_not_inRange inside, fill_of_not_inRange inside]
    exact same target outside

/-- Writing the table entry of a window. -/
theorem windowEntry
    (mem : Memory)
    {slot : Nat}
    (inTable : slot < tempMappingCount)
    (entry : Nat) :
    SameOffWindows windowTable
      (ByteMemory.store mem 4 (entryAddr windowTable (1023 - slot)) entry)
      mem := by
  intro target outside
  apply store_of_not_inRange
  simp only [tempMappingCount] at inTable
  simp only [InRange, entryAddr] at outside ⊢
  omega

section Pages

variable {page : Nat}
variable (tableAligned : 2 ^ 12 ∣ windowTable) (pageAligned : 2 ^ 12 ∣ page)
variable (different : page ≠ windowTable)
include tableAligned pageAligned different

/-- A page other than the table of the windows holds no entry of a window. -/
theorem not_inRange
    {address : Nat}
    (inside : InRange page pageSize address) :
    ¬ InRange (entryAddr windowTable 1020) 16 address := by
  have apart := frames_apart pageAligned tableAligned different
  simp only [InRange, entryAddr, pageSize] at inside apart ⊢
  omega

theorem agree (same : SameOffWindows windowTable left right) :
    Agree page pageSize left right :=
  fun address inside => same address
    (not_inRange tableAligned pageAligned different inside)

theorem entryAt_eq
    (same : SameOffWindows windowTable left right)
    {index : Nat}
    (bound : index < 1024) :
    entryAt left page index = entryAt right page index :=
  load_congr (Windows.entry_agree bound
    (agree tableAligned pageAligned different same))

theorem transfer
    (same : SameOffWindows windowTable left right)
    (dest : Nat)
    {count : Nat}
    (inPage : count ≤ pageSize) :
    SameOffWindows windowTable (ByteMemory.transfer left dest page count)
      (ByteMemory.transfer right dest page count) := by
  intro target outside
  by_cases inside : InRange dest count target
  · rw [transfer_of_inRange inside, transfer_of_inRange inside]
    refine agree tableAligned pageAligned different same _ ?_
    simp only [InRange] at inside ⊢
    omega
  · rw [transfer_of_not_inRange inside, transfer_of_not_inRange inside]
    exact same target outside

end Pages

end SameOffWindows

/-- The tables behind the windows hold no entry of a window. -/
theorem KernelPaging.sameOffWindows
    {mem changed : Memory} {dir kernelDir windowTable : Nat}
    (paging : KernelPaging mem dir kernelDir windowTable)
    (dirAligned : 2 ^ 12 ∣ dir)
    (tableApart : windowTable ≠ dir ∧ windowTable ≠ kernelDir)
    (same : SameOffWindows windowTable changed mem) :
    KernelPaging changed dir kernelDir windowTable := by
  have tableAligned := paging.dirWindows.frame_lt.2
  have dirKept : ∀ index < 1024, Agree (entryAddr dir index) 4 changed mem :=
    fun index bound => Windows.entry_agree bound
      (same.agree tableAligned dirAligned tableApart.1.symm)
  have kernelKept :
      ∀ index < 1024, Agree (entryAddr kernelDir index) 4 changed mem :=
    fun index bound => Windows.entry_agree bound
      (same.agree tableAligned paging.dirSelf.frame_lt.2 tableApart.2.symm)
  exact ⟨paging.dirSelf.congr (dirKept _ (by omega)),
    paging.kernelSelf.congr (kernelKept _ (by omega)),
    paging.dirWindows.congr (dirKept _ (by omega)),
    paging.kernelWindows.congr (kernelKept _ (by omega))⟩

/-! ## Accesses through a window -/

/-- `memcpy` as long as its pointers lead to the bytes of two ranges. -/
theorem memcpy_of_resolve
    {state : KernelState} {dest src destFrame srcFrame count : Nat}
    (destLeads : ∀ i < count,
      (state.withMem (transfer state.mem destFrame srcFrame i)).resolve
        (wrap32 (dest + i)) = some (destFrame + i))
    (srcLeads : ∀ i < count,
      (state.withMem (transfer state.mem destFrame srcFrame i)).resolve
        (wrap32 (src + i)) = some (srcFrame + i))
    (kept : ∀ i < count, ¬ InRange destFrame i (srcFrame + i)) :
    MatrixOS.memcpy virtualAccess dest src count state =
      some ((), state.withMem
        (transfer state.mem destFrame srcFrame count)) := by
  induction count with
  | zero =>
      rw [transfer_zero]
      rfl
  | succ i inductionHypothesis =>
      have last := Nat.lt_succ_self i
      have copied := inductionHypothesis
        (fun other below => destLeads other (by omega))
        (fun other below => srcLeads other (by omega))
        (fun other below => kept other (by omega))
      rw [MatrixOS.memcpy, bind_of_eq copied]
      refine (bind_of_eq (load8_of_resolve (srcLeads i last))).trans ?_
      rw [transfer_succ (kept i last)]
      exact store8_of_resolve (destLeads i last) _

namespace Windows

variable {state : KernelState} {kernelDir windowTable slot frame : Nat}
variable {frames : Nat → Option Nat}

/-- The windows do not depend on the page allocator. -/
theorem withBuddySys
    (windows : Windows state kernelDir windowTable frames)
    (buddySys : Pmm.BuddySystem) :
    Windows (state.withBuddySys buddySys) kernelDir windowTable frames :=
  ⟨windows.paging, windows.slots, windows.mapped, windows.dirAligned,
    windows.tableApart⟩

/-- Where the bytes of a window are. -/
theorem resolve
    (windows : Windows state kernelDir windowTable frames)
    (inTable : slot < tempMappingCount)
    (used : frames slot = some frame)
    {offset : Nat}
    (inPage : offset < pageSize) :
    state.resolve (wrap32 (windowAddr slot + offset)) =
      some (frame + offset) := by
  rw [wrap32_windowAddr inPage]
  exact resolve_window windows.paging inTable
    (windows.mapped slot inTable frame used) inPage

/-- The windows after a word of a clear frame has been written. -/
theorem withEntry
    (windows : Windows state kernelDir windowTable frames)
    (clear : Clear state.cr3 kernelDir windowTable frame)
    {index : Nat}
    (bound : index < 1024)
    (value : Nat) :
    Windows (state.withMem (store state.mem 4 (entryAddr frame index) value))
      kernelDir windowTable frames := by
  refine windows.withFrame clear fun address outside =>
    store_of_not_inRange fun inside => outside ?_
  simp only [InRange, entryAddr, pageSize] at inside ⊢
  omega

/-- The windows after bytes of a clear frame have been set. -/
theorem withFill
    (windows : Windows state kernelDir windowTable frames)
    (clear : Clear state.cr3 kernelDir windowTable frame)
    {count : Nat}
    (inPage : count ≤ pageSize)
    (byte : UInt8) :
    Windows (state.withMem (fill state.mem frame count byte))
      kernelDir windowTable frames := by
  refine windows.withFrame clear fun address outside =>
    fill_of_not_inRange fun inside => outside ?_
  exact ⟨inside.1, Nat.lt_of_lt_of_le inside.2 (by omega)⟩

/-- The windows after bytes have been copied into a clear frame. -/
theorem withTransfer
    (windows : Windows state kernelDir windowTable frames)
    (clear : Clear state.cr3 kernelDir windowTable frame)
    {count : Nat}
    (inPage : count ≤ pageSize)
    (source : Nat) :
    Windows (state.withMem (transfer state.mem frame source count))
      kernelDir windowTable frames := by
  refine windows.withFrame clear fun address outside =>
    transfer_of_not_inRange fun inside => outside ?_
  exact ⟨inside.1, Nat.lt_of_lt_of_le inside.2 (by omega)⟩

/-- Writing a word of the page in a window. -/
theorem store32
    (windows : Windows state kernelDir windowTable frames)
    (inTable : slot < tempMappingCount)
    (used : frames slot = some frame)
    {index : Nat}
    (bound : index < 1024)
    (value : Nat) :
    MatrixOS.store32 (windowAddr slot + index * 4) value state =
      some ((), state.withMem
        (store state.mem 4 (entryAddr frame index) value)) :=
  store32_of_resolve (resolve_window windows.paging inTable
    (windows.mapped slot inTable frame used) (by omega))

/-- `memset` of the first bytes of the page in a window. -/
theorem memset
    (windows : Windows state kernelDir windowTable frames)
    (clear : Clear state.cr3 kernelDir windowTable frame)
    (inTable : slot < tempMappingCount)
    (used : frames slot = some frame)
    (value : Nat)
    {count : Nat}
    (inPage : count ≤ pageSize) :
    MatrixOS.memset virtualAccess (windowAddr slot) value count state =
      some ((), state.withMem
        (fill state.mem frame count (UInt8.ofNat value))) := by
  induction count with
  | zero =>
      rw [fill_zero]
      rfl
  | succ i inductionHypothesis =>
      have filled := windows.withFill clear (Nat.le_of_succ_le inPage)
        (UInt8.ofNat value)
      rw [MatrixOS.memset, bind_of_eq (inductionHypothesis (by omega)), fill_succ]
      exact store8_of_resolve
        (filled.resolve inTable used (Nat.lt_of_succ_le inPage)) _

/-- `memcpy` from the page in one window to the page in another. -/
theorem memcpy
    (windows : Windows state kernelDir windowTable frames)
    (clear : Clear state.cr3 kernelDir windowTable frame)
    (inTable : slot < tempMappingCount)
    (used : frames slot = some frame)
    {source sourceFrame : Nat}
    (sourceInTable : source < tempMappingCount)
    (sourceUsed : frames source = some sourceFrame)
    (sourceAligned : 2 ^ 12 ∣ sourceFrame)
    (different : sourceFrame ≠ frame)
    {count : Nat}
    (inPage : count ≤ pageSize) :
    MatrixOS.memcpy virtualAccess (windowAddr slot) (windowAddr source) count
        state =
      some ((), state.withMem
        (transfer state.mem frame sourceFrame count)) := by
  have copied : ∀ i < count, Windows
      (state.withMem (transfer state.mem frame sourceFrame i))
      kernelDir windowTable frames :=
    fun i below => windows.withTransfer clear (by omega) sourceFrame
  refine memcpy_of_resolve
    (fun i below => (copied i below).resolve inTable used (by omega))
    (fun i below =>
      (copied i below).resolve sourceInTable sourceUsed (by omega)) ?_
  intro i below
  have apart := frames_apart sourceAligned clear.aligned different
  simp only [InRange]
  omega

end Windows

/-! ## The kernel's half of a directory -/

/-- The memory after `count` kernel entries have been copied to `dir`. -/
def copiedEntries (mem : Memory) (dir kernelDir : Nat) : (count : Nat) → Memory
  | 0 => mem
  | count + 1 =>
      let copied := copiedEntries mem dir kernelDir count
      store copied 4 (entryAddr dir (768 + count))
        (entryAt copied kernelDir (768 + count))

section CopiedEntries

variable {mem : Memory} {dir kernelDir count : Nat}

theorem copiedEntries_outside
    (bound : count ≤ 256)
    {address : Nat}
    (outside : ¬ InRange dir pageSize address) :
    copiedEntries mem dir kernelDir count address = mem address := by
  induction count with
  | zero =>
      rfl
  | succ count inductionHypothesis =>
      rw [copiedEntries, store_of_not_inRange]
      · exact inductionHypothesis (by omega)
      · simp only [InRange, entryAddr, pageSize] at outside ⊢
        omega

/-- The copied entries are the kernel's, the others are kept. -/
theorem entryAt_copiedEntries
    (dirAligned : 2 ^ 12 ∣ dir)
    (kernelDirAligned : 2 ^ 12 ∣ kernelDir)
    (different : kernelDir ≠ dir)
    (bound : count ≤ 256)
    {index : Nat}
    (indexBound : index < 1024) :
    entryAt (copiedEntries mem dir kernelDir count) dir index =
      if 768 ≤ index ∧ index < 768 + count then entryAt mem kernelDir index
      else entryAt mem dir index := by
  induction count with
  | zero =>
      rw [if_neg (by omega), copiedEntries]
  | succ count inductionHypothesis =>
      have kernelKept :
          entryAt (copiedEntries mem dir kernelDir count) kernelDir
              (768 + count) =
            entryAt mem kernelDir (768 + count) := by
        have apart := frames_apart kernelDirAligned dirAligned different
        refine load_congr fun address inside =>
          copiedEntries_outside (by omega) ?_
        simp only [InRange, entryAddr, pageSize] at inside apart ⊢
        omega
      rw [copiedEntries, entryAt]
      by_cases last : index = 768 + count
      · subst last
        rw [load_store, kernelKept, if_pos (by omega)]
        exact Nat.mod_eq_of_lt (load_lt mem 4 _)
      · rw [load_store_of_disjoint (by simp only [entryAddr]; omega)]
        refine (inductionHypothesis (by omega)).trans (if_congr ?_ rfl rfl)
        omega

theorem SameOffWindows.copiedEntries
    {windowTable : Nat} {left right : Memory}
    (same : SameOffWindows windowTable left right)
    (tableAligned : 2 ^ 12 ∣ windowTable)
    (kernelDirAligned : 2 ^ 12 ∣ kernelDir)
    (different : kernelDir ≠ windowTable)
    (bound : count ≤ 256) :
    SameOffWindows windowTable (copiedEntries left dir kernelDir count)
      (copiedEntries right dir kernelDir count) := by
  induction count with
  | zero =>
      exact same
  | succ count inductionHypothesis =>
      have copied := inductionHypothesis (by omega)
      have entry := copied.entryAt_eq tableAligned kernelDirAligned different
        (show 768 + count < 1024 by omega)
      simp only [MatrixOS.copiedEntries, entry]
      exact copied.store _ _ _

end CopiedEntries

namespace Windows

variable {state : KernelState} {kernelDir windowTable slot dir : Nat}
variable {frames : Nat → Option Nat}

/-- The windows after the kernel entries have been copied to a clear frame. -/
theorem withCopiedEntries
    (windows : Windows state kernelDir windowTable frames)
    (clear : Clear state.cr3 kernelDir windowTable dir)
    {count : Nat}
    (bound : count ≤ 256) :
    Windows (state.withMem (copiedEntries state.mem dir kernelDir count))
      kernelDir windowTable frames :=
  windows.withFrame clear fun _ => copiedEntries_outside bound

theorem copyKernelEntries
    (windows : Windows state kernelDir windowTable frames)
    (clear : Clear state.cr3 kernelDir windowTable dir)
    (inTable : slot < tempMappingCount)
    (used : frames slot = some dir)
    {count : Nat}
    (bound : count ≤ 256) :
    MatrixOS.copyKernelEntries (windowAddr slot) count state =
      some ((), state.withMem
        (copiedEntries state.mem dir kernelDir count)) := by
  induction count with
  | zero =>
      rfl
  | succ count inductionHypothesis =>
      have copied := windows.withCopiedEntries clear (Nat.le_of_succ_le bound)
      have read :=
        load32_of_resolve (resolve_kernelDir copied.paging
          (show 768 + count < 1024 by omega))
      rw [MatrixOS.copyKernelEntries, bind_of_eq (inductionHypothesis (by omega))]
      refine (bind_of_eq read).trans ?_
      exact copied.store32 inTable used (by omega) _

end Windows

end MatrixOS
