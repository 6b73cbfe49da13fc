import MatrixOS.ByteMemory

namespace Paging

open ByteMemory

/-!
# Two-level page tables

The page walk of a 32-bit x86 processor with 4 KB pages.  Directories and
tables are arrays of 1024 words in physical memory; bit 0 of an entry marks it
present, bit 1 writable and bit 2 accessible to user code.
-/

/-- The page frame an entry points to. -/
def frameOf (entry : Nat) : Nat :=
  entry / 2 ^ 12 * 2 ^ 12

def present (entry : Nat) : Bool :=
  entry.testBit 0

def writable (entry : Nat) : Bool :=
  entry.testBit 1

def userAccessible (entry : Nat) : Bool :=
  entry.testBit 2

/-- The address of an entry of the directory or table at `table`. -/
def entryAddr (table index : Nat) : Nat :=
  table + index * 4

/-- An entry of the directory or table at `table`. -/
def entryAt (mem : Memory) (table index : Nat) : Nat :=
  load mem 4 (entryAddr table index)

/-- Where a virtual address leads, and with which rights. -/
structure Translation where
  addr : Nat
  writable : Bool
  userAccessible : Bool
  deriving Repr, DecidableEq

/-- The page walk. -/
def translate (mem : Memory) (directory virtualAddr : Nat) :
    Option Translation :=
  let pde := entryAt mem directory (virtualAddr / 2 ^ 22)
  if present pde then
    let pte := entryAt mem (frameOf pde) (virtualAddr / 2 ^ 12 % 2 ^ 10)
    if present pte then
      some {
        addr := frameOf pte + virtualAddr % 2 ^ 12
        writable := writable pde && writable pte
        userAccessible := userAccessible pde && userAccessible pte }
    else
      none
  else
    none

/-- The page-table entry of a virtual address. -/
def pageEntry (mem : Memory) (directory virtualAddr : Nat) : Nat :=
  entryAt mem (frameOf (entryAt mem directory (virtualAddr / 2 ^ 22)))
    (virtualAddr / 2 ^ 12 % 2 ^ 10)

/-- The physical address of a virtual address. -/
def walk (mem : Memory) (directory virtualAddr : Nat) : Option Nat :=
  (translate mem directory virtualAddr).map Translation.addr

section Entries

variable {mem : Memory} {frame flags : Nat}

/-- An entry made of an aligned frame and flags. -/
theorem or_flags
    (aligned : 2 ^ 12 ∣ frame)
    (small : flags < 2 ^ 12) :
    frame ||| flags = frame + flags := by
  obtain ⟨page, rfl⟩ := aligned
  rw [← Nat.two_pow_add_eq_or_of_lt small]

/-- An entry is a word. -/
theorem or_flags_mod
    (aligned : 2 ^ 12 ∣ frame)
    (inRange : frame + 2 ^ 12 ≤ 2 ^ 32)
    (small : flags < 2 ^ 12) :
    (frame ||| flags) % 256 ^ 4 = frame ||| flags := by
  rw [or_flags aligned small]
  exact Nat.mod_eq_of_lt (by omega)

theorem frameOf_add
    (aligned : 2 ^ 12 ∣ frame)
    (small : flags < 2 ^ 12) :
    frameOf (frame + flags) = frame := by
  obtain ⟨page, rfl⟩ := aligned
  simp only [frameOf]
  omega

theorem testBit_add
    (aligned : 2 ^ 12 ∣ frame)
    (small : flags < 2 ^ 12)
    {bit : Nat}
    (low : bit < 12) :
    (frame + flags).testBit bit = flags.testBit bit := by
  obtain ⟨page, rfl⟩ := aligned
  rw [Nat.testBit_two_pow_mul_add _ small, if_pos low]

/-- An entry the kernel makes for itself. -/
theorem kernelEntry
    (aligned : 2 ^ 12 ∣ frame) :
    present (frame ||| 0x03) = true ∧ writable (frame ||| 0x03) = true ∧
      userAccessible (frame ||| 0x03) = false ∧
      frameOf (frame ||| 0x03) = frame := by
  rw [or_flags aligned (by decide)]
  exact ⟨testBit_add aligned (by decide) (by decide),
    testBit_add aligned (by decide) (by decide),
    testBit_add aligned (by decide) (by decide),
    frameOf_add aligned (by decide)⟩

/-- An entry the kernel makes for user code. -/
theorem userEntry
    (aligned : 2 ^ 12 ∣ frame) :
    present (frame ||| 0x07) = true ∧ writable (frame ||| 0x07) = true ∧
      userAccessible (frame ||| 0x07) = true ∧
      frameOf (frame ||| 0x07) = frame := by
  rw [or_flags aligned (by decide)]
  exact ⟨testBit_add aligned (by decide) (by decide),
    testBit_add aligned (by decide) (by decide),
    testBit_add aligned (by decide) (by decide),
    frameOf_add aligned (by decide)⟩

end Entries

/-! ## Walks -/

section Walks

variable {mem changed : Memory} {directory virtualAddr : Nat}

/-- A walk whose directory and table entries are present. -/
theorem walk_of_entries
    {pde pte : Nat}
    (directoryEntry : entryAt mem directory (virtualAddr / 2 ^ 22) = pde)
    (tableEntry :
      entryAt mem (frameOf pde) (virtualAddr / 2 ^ 12 % 2 ^ 10) = pte)
    (directoryPresent : present pde = true)
    (tablePresent : present pte = true) :
    translate mem directory virtualAddr =
      some {
        addr := frameOf pte + virtualAddr % 2 ^ 12
        writable := writable pde && writable pte
        userAccessible := userAccessible pde && userAccessible pte } := by
  simp only [translate, directoryEntry, tableEntry, directoryPresent,
    tablePresent, ↓reduceIte]

theorem translate_of_not_present
    (missing :
      present (entryAt mem directory (virtualAddr / 2 ^ 22)) = false) :
    translate mem directory virtualAddr = none := by
  simp only [translate, missing, Bool.false_eq_true, ↓reduceIte]

theorem translate_of_table_not_present
    (missing :
      present (entryAt mem
        (frameOf (entryAt mem directory (virtualAddr / 2 ^ 22)))
        (virtualAddr / 2 ^ 12 % 2 ^ 10)) = false) :
    translate mem directory virtualAddr = none := by
  simp only [translate, missing, Bool.false_eq_true, ↓reduceIte, ite_self]

/-- A walk depends on the two entries it reads. -/
theorem translate_congr
    (sameDirectory :
      entryAt changed directory (virtualAddr / 2 ^ 22) =
        entryAt mem directory (virtualAddr / 2 ^ 22))
    (sameTable :
      present (entryAt mem directory (virtualAddr / 2 ^ 22)) = true →
      entryAt changed
          (frameOf (entryAt mem directory (virtualAddr / 2 ^ 22)))
          (virtualAddr / 2 ^ 12 % 2 ^ 10) =
        entryAt mem
          (frameOf (entryAt mem directory (virtualAddr / 2 ^ 22)))
          (virtualAddr / 2 ^ 12 % 2 ^ 10)) :
    translate changed directory virtualAddr =
      translate mem directory virtualAddr := by
  by_cases isPresent :
      present (entryAt mem directory (virtualAddr / 2 ^ 22)) = true
  · simp only [translate, sameDirectory, sameTable isPresent]
  · simp only [translate, sameDirectory, isPresent, Bool.false_eq_true,
      ↓reduceIte]

end Walks

/-! ## Present entries -/

/-- An entry is present and points to a frame. -/
def PointsTo (mem : Memory) (table index frame : Nat) : Prop :=
  present (entryAt mem table index) = true ∧
    frameOf (entryAt mem table index) = frame

theorem walk_of_pointsTo
    {mem : Memory} {dir table frame virtualAddr : Nat}
    (directory : PointsTo mem dir (virtualAddr / 2 ^ 22) table)
    (entry : PointsTo mem table (virtualAddr / 2 ^ 12 % 2 ^ 10) frame) :
    walk mem dir virtualAddr = some (frame + virtualAddr % 2 ^ 12) := by
  obtain ⟨dirPresent, rfl⟩ := directory
  obtain ⟨tablePresent, rfl⟩ := entry
  rw [walk, walk_of_entries rfl rfl dirPresent tablePresent]
  rfl

theorem pointsTo_of_walk
    {mem : Memory} {dir virtualAddr addr : Nat}
    (leads : walk mem dir virtualAddr = some addr) :
    ∃ table frame,
      PointsTo mem dir (virtualAddr / 2 ^ 22) table ∧
      PointsTo mem table (virtualAddr / 2 ^ 12 % 2 ^ 10) frame ∧
      addr = frame + virtualAddr % 2 ^ 12 := by
  obtain ⟨translation, found, rfl⟩ := Option.map_eq_some_iff.mp leads
  simp only [translate] at found
  split at found
  · rename_i dirPresent
    split at found
    · rename_i tablePresent
      obtain rfl := Option.some.inj found
      exact ⟨_, _, ⟨dirPresent, rfl⟩, ⟨tablePresent, rfl⟩, rfl⟩
    · cases found
  · cases found

theorem PointsTo.frame_lt
    {mem : Memory} {table index frame : Nat}
    (entry : PointsTo mem table index frame) :
    frame + 2 ^ 12 ≤ 2 ^ 32 ∧ 2 ^ 12 ∣ frame := by
  have range : entryAt mem table index < 256 ^ 4 := load_lt mem 4 _
  rw [← entry.2, frameOf]
  exact ⟨by omega, Nat.dvd_mul_left _ _⟩

theorem PointsTo.congr
    {mem changed : Memory} {table index frame : Nat}
    (entry : PointsTo mem table index frame)
    (agree : Agree (entryAddr table index) 4 changed mem) :
    PointsTo changed table index frame := by
  have same : entryAt changed table index = entryAt mem table index :=
    load_congr agree
  rwa [PointsTo, same]

/-- An entry made by the kernel for a page and flags with the present bit. -/
theorem pointsTo_store
    {mem : Memory} {table index page flags : Nat}
    (aligned : 2 ^ 12 ∣ page)
    (inRange : page + 2 ^ 12 ≤ 2 ^ 32)
    (small : flags < 2 ^ 12)
    (isPresent : flags.testBit 0 = true) :
    PointsTo (store mem 4 (entryAddr table index) (page ||| flags))
      table index page := by
  have value : (page + flags) % 256 ^ 4 = page + flags :=
    Nat.mod_eq_of_lt (by omega)
  rw [PointsTo, entryAt, load_store, or_flags aligned small, value]
  refine ⟨?_, frameOf_add aligned small⟩
  rw [present, testBit_add aligned small (by omega), isPresent]

end Paging
