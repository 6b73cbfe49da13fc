import MatrixOS.InterruptEntry
import MatrixOS.Process
import MatrixOS.X86Descriptors

namespace MatrixOS.DescriptorTables

open ByteMemory X86

/-!
# The descriptor tables of the kernel

`boot/loader.asm` has the segments in its data and `isr_install` makes the
interrupt table and the task.  They are written into memory byte by byte, and
the processor reads them as `X86Descriptors` says.
-/

/-! ## Where things lie -/

/-- A range of bytes. -/
structure Area where
  first : Nat
  count : Nat
  deriving Repr, DecidableEq

def Area.Apart (left right : Area) : Prop :=
  left.first + left.count ≤ right.first ∨
    right.first + right.count ≤ left.first

instance (left right : Area) : Decidable (left.Apart right) :=
  inferInstanceAs (Decidable (_ ∨ _))

/-- The addresses that the linker has given to the symbols. -/
structure Layout where
  idt : Nat
  idtPtr : Nat
  gdtStart : Nat
  tss : Nat
  interruptVectors : Nat
  syscallEntry : Nat
  /-- `int_0`, `int_1` and so on. -/
  interruptStub : Nat → Nat
  apart : [Area.mk idt 2048, ⟨idtPtr, 6⟩, ⟨gdtStart, 54⟩, ⟨tss, 104⟩,
    ⟨interruptVectors, 1024⟩].Pairwise Area.Apart
  addresses : ∀ address ∈ [idt, gdtStart, tss, syscallEntry],
    address < 0x100000000
  stubs : ∀ vector, interruptStub vector < 0x100000000

namespace Layout

variable (layout : Layout)

def gdtTss : Nat :=
  layout.gdtStart + 40

def gdtDescriptor : Nat :=
  layout.gdtStart + 48

/-- The code behind an entry of the interrupt table. -/
def gateAddress : Gate → Nat
  | .stub vector => layout.interruptStub vector
  | .syscallEntry => layout.syscallEntry

/-- What the order of the areas leaves open, said pair by pair. -/
theorem pairs :
    ((Area.mk layout.idt 2048).Apart ⟨layout.idtPtr, 6⟩ ∧
      (Area.mk layout.idt 2048).Apart ⟨layout.gdtStart, 54⟩ ∧
      (Area.mk layout.idt 2048).Apart ⟨layout.tss, 104⟩ ∧
      (Area.mk layout.idt 2048).Apart ⟨layout.interruptVectors, 1024⟩) ∧
    ((Area.mk layout.idtPtr 6).Apart ⟨layout.gdtStart, 54⟩ ∧
      (Area.mk layout.idtPtr 6).Apart ⟨layout.tss, 104⟩ ∧
      (Area.mk layout.idtPtr 6).Apart ⟨layout.interruptVectors, 1024⟩) ∧
    ((Area.mk layout.gdtStart 54).Apart ⟨layout.tss, 104⟩ ∧
      (Area.mk layout.gdtStart 54).Apart ⟨layout.interruptVectors, 1024⟩) ∧
    (Area.mk layout.tss 104).Apart ⟨layout.interruptVectors, 1024⟩ := by
  simpa using layout.apart

theorem gateAddress_lt (gate : Gate) :
    layout.gateAddress gate < 0x100000000 := by
  cases gate with
  | stub vector => exact layout.stubs vector
  | syscallEntry => exact layout.addresses layout.syscallEntry (by simp)

end Layout

/-- Data of an assembly file. -/
inductive Datum where
  | db (value : Nat)
  | dw (value : Nat)
  | dd (value : Nat)
  deriving Repr, DecidableEq

def Datum.size : Datum → Nat
  | .db _ => 1
  | .dw _ => 2
  | .dd _ => 4

def Datum.value : Datum → Nat
  | .db value | .dw value | .dd value => value

/-- The memory has the data from an address on. -/
def Placed (mem : Memory) : Nat → List Datum → Prop
  | _, [] => True
  | address, datum :: rest =>
      load mem datum.size address = datum.value ∧
        Placed mem (address + datum.size) rest

/-- A segment of 4 GiB. -/
def flatSegment (access : Nat) : List Datum :=
  [.dw 0xFFFF, .dw 0x0000, .db 0x00, .db access, .db 0b11001111, .db 0x00]

/-- `gdt_start` up to `gdt_descriptor` in `boot/loader.asm`. -/
def gdtData (layout : Layout) : List Datum :=
  [.dd 0, .dd 0] ++
    flatSegment 0b10011010 ++
    flatSegment 0b10010010 ++
    flatSegment 0b11111010 ++
    flatSegment 0b11110010 ++
    [.dw 104, .dw 0, .db 0, .db 0b10001001, .db 0b00000000, .db 0] ++
    [.dw 47, .dd layout.gdtStart]

/-- `interrupt_vectors` in `kernel/interrupts/interrupt_asm.asm`. -/
def interruptVectorsData (layout : Layout) : List Datum :=
  (List.range 256).map fun vector => .dd (layout.interruptStub vector)

/-- The data of the kernel are loaded. -/
structure Loaded (layout : Layout) (mem : Memory) : Prop where
  gdt : Placed mem layout.gdtStart (gdtData layout)
  vectors : Placed mem layout.interruptVectors (interruptVectorsData layout)

theorem gdtData_size (layout : Layout) :
    ((gdtData layout).map Datum.size).sum = 54 := by
  simp [gdtData, flatSegment, Datum.size]

/-! ## The code -/

/-- `lgdt [gdt_descriptor]` of `high_half_entry`. -/
def loadGdt
    (layout : Layout) (mem : Memory) (regs : TableRegisters) : TableRegisters :=
  { regs with
    gdtr := ⟨load mem 4 (layout.gdtDescriptor + 2),
      load mem 2 layout.gdtDescriptor⟩ }

/-- `idt_set_gate`. -/
def idtSetGate
    (layout : Layout) (mem : Memory) (n handler flags : Nat) : Memory :=
  let entry := layout.idt + 8 * n
  let mem := store mem 2 entry (handler % 0x10000)
  let mem := store mem 2 (entry + 6) (handler / 0x10000 % 0x10000)
  let mem := store mem 2 (entry + 2) 0x08
  let mem := store mem 1 (entry + 4) 0
  store mem 1 (entry + 5) flags

/-- The body of the loop of `idt_install`. -/
def idtInstallGate (layout : Layout) (mem : Memory) (i : Nat) : Memory :=
  if i = 0x80 then
    idtSetGate layout mem 0x80 layout.syscallEntry 0xEE
  else
    idtSetGate layout mem i (load mem 4 (layout.interruptVectors + 4 * i)) 0x8E

/-- `idt_install`. -/
def idtInstall
    (layout : Layout) (mem : Memory) (regs : TableRegisters) :
    Memory × TableRegisters :=
  let mem := store mem 2 layout.idtPtr (8 * 256 - 1)
  let mem := store mem 4 (layout.idtPtr + 2) layout.idt
  let mem := (List.range 256).foldl (idtInstallGate layout) mem
  (mem, { regs with
    idtr := ⟨load mem 4 (layout.idtPtr + 2), load mem 2 layout.idtPtr⟩ })

/-- `tss_set_descriptor`. -/
def tssSetDescriptor (layout : Layout) (mem : Memory) (tssBase : Nat) : Memory :=
  let mem := store mem 2 (layout.gdtTss + 2) (tssBase % 0x10000)
  let mem := store mem 1 (layout.gdtTss + 4) (tssBase / 0x10000 % 0x100)
  store mem 1 (layout.gdtTss + 7) (tssBase / 0x1000000)

/-- `tss_init`. -/
def tssInit (layout : Layout) (mem : Memory) : Memory :=
  let mem := fill mem layout.tss 104 0
  let mem := store mem 4 (layout.tss + 8) 0x10
  let mem := store mem 4 (layout.tss + 4) 0xC0130000
  let mem := store mem 4 (layout.tss + 72) 0x10
  let mem := store mem 4 (layout.tss + 76) 0x08
  let mem := store mem 4 (layout.tss + 80) 0x10
  let mem := store mem 4 (layout.tss + 84) 0x10
  let mem := store mem 4 (layout.tss + 88) 0x10
  let mem := store mem 4 (layout.tss + 92) 0x10
  store mem 2 (layout.tss + 102) 104

/-- `tss_set_stack`. -/
def tssSetStack
    (layout : Layout) (mem : Memory) (kernelSs kernelEsp : Nat) : Memory :=
  store (store mem 4 (layout.tss + 8) kernelSs) 4 (layout.tss + 4) kernelEsp

/-- `tss_flush`. -/
def tssFlush (mem : Memory) (regs : TableRegisters) :
    Option (Memory × TableRegisters) :=
  loadTask mem regs 0x28

/-- `isr_install`, less the interrupt controllers. -/
def isrInstall
    (layout : Layout) (kernelEsp : Nat) (mem : Memory) (regs : TableRegisters) :
    Option (Memory × TableRegisters) := do
  let (mem, regs) := idtInstall layout mem regs
  let mem := tssSetDescriptor layout mem layout.tss
  let mem := tssInit layout mem
  let (mem, regs) ← tssFlush mem regs
  return (tssSetStack layout mem 0x10 kernelEsp, regs)

/-! ## What is written where -/

/-- Only a range of the memory is written. -/
def WritesOnly (first count : Nat) (before after : Memory) : Prop :=
  ∀ address, ¬ InRange first count address → after address = before address

namespace WritesOnly

variable {first count : Nat} {before middle after : Memory}

theorem refl (mem : Memory) : WritesOnly first count mem mem :=
  fun _ _ => rfl

theorem trans
    (earlier : WritesOnly first count before middle)
    (later : WritesOnly first count middle after) :
    WritesOnly first count before after :=
  fun address outside =>
    (later address outside).trans (earlier address outside)

theorem mono
    {wide more : Nat}
    (writes : WritesOnly first count before after)
    (lower : wide ≤ first)
    (upper : first + count ≤ wide + more) :
    WritesOnly wide more before after := by
  intro address outside
  refine writes address fun inside => outside ?_
  simp only [InRange] at inside ⊢
  omega

/-- A further store in the range. -/
theorem store
    {width address value : Nat}
    (writes : WritesOnly first count before middle)
    (lower : first ≤ address)
    (upper : address + width ≤ first + count) :
    WritesOnly first count before
      (ByteMemory.store middle width address value) := by
  refine writes.trans fun target outside => store_of_not_inRange fun inside => ?_
  simp only [InRange] at inside outside
  omega

/-- What is apart from the range is as before. -/
theorem agree
    {other otherCount : Nat}
    (writes : WritesOnly first count before after)
    (apart : other + otherCount ≤ first ∨ first + count ≤ other) :
    Agree other otherCount after before := by
  intro address inside
  refine writes address fun written => ?_
  simp only [InRange] at inside written
  omega

end WritesOnly

section Writes

variable (layout : Layout) (mem : Memory)

theorem idtSetGate_writes (n handler flags : Nat) :
    WritesOnly (layout.idt + 8 * n) 8 mem
      (idtSetGate layout mem n handler flags) := by
  unfold idtSetGate
  exact ((((WritesOnly.refl mem).store (by omega) (by omega)).store (by omega)
    (by omega)).store (by omega) (by omega)).store (by omega) (by omega)
    |>.store (by omega) (by omega)

theorem idtInstallGate_writes (i : Nat) :
    WritesOnly (layout.idt + 8 * i) 8 mem (idtInstallGate layout mem i) := by
  unfold idtInstallGate
  split
  next isSyscall => exact isSyscall ▸ idtSetGate_writes layout mem _ _ _
  next => exact idtSetGate_writes layout mem _ _ _

theorem tssSetDescriptor_writes (tssBase : Nat) :
    WritesOnly layout.gdtTss 8 mem (tssSetDescriptor layout mem tssBase) :=
  (((WritesOnly.refl mem).store (by omega) (by omega)).store (by omega)
    (by omega)).store (by omega) (by omega)

theorem tssSetStack_writes (kernelSs kernelEsp : Nat) :
    WritesOnly layout.tss 104 mem
      (tssSetStack layout mem kernelSs kernelEsp) :=
  ((WritesOnly.refl mem).store (by omega) (by omega)).store (by omega)
    (by omega)

theorem tssInit_writes :
    WritesOnly layout.tss 104 mem (tssInit layout mem) := by
  have cleared : WritesOnly layout.tss 104 mem (fill mem layout.tss 104 0) :=
    fun _ outside => fill_of_not_inRange outside
  unfold tssInit
  repeat
    first
    | exact cleared
    | refine WritesOnly.store ?_ (by omega) (by omega)

end Writes

/-! ## The interrupt table -/

/-- The descriptor that an interrupt finds. -/
def Layout.gate (layout : Layout) (vector : Nat) : GateDescriptor where
  offset := layout.gateAddress (idtGate vector)
  selector := 0x08
  access := if vector = 0x80 then 0xEE else 0x8E

theorem readGate_idtSetGate
    {layout : Layout}
    {mem : Memory}
    {n handler flags : Nat}
    (isAddress : handler < 0x100000000)
    (isByte : flags < 0x100) :
    readGate (idtSetGate layout mem n handler flags) (layout.idt + 8 * n) =
      ⟨handler, 0x08, flags⟩ := by
  simp (disch := omega) only [readGate, idtSetGate, load_store,
    load_store_of_disjoint]
  rw [GateDescriptor.mk.injEq]
  omega

theorem Placed.congr
    {left right : Memory}
    {address : Nat}
    {data : List Datum}
    (placed : Placed left address data)
    (agree : Agree address (data.map Datum.size).sum right left) :
    Placed right address data := by
  induction data generalizing address with
  | nil => exact trivial
  | cons datum data inductionHypothesis =>
      rw [List.map_cons, List.sum_cons] at agree
      refine ⟨?_, inductionHypothesis placed.2
        (agree.mono (by omega) (by omega))⟩
      rw [load_congr (agree.mono (Nat.le_refl _) (by omega))]
      exact placed.1

/-- The entries of `interrupt_vectors`. -/
theorem Placed.dd
    {mem : Memory}
    {address index : Nat}
    {words : List Nat}
    (placed : Placed mem address (words.map .dd))
    (inside : index < words.length) :
    load mem 4 (address + 4 * index) = words[index] := by
  induction words generalizing address index with
  | nil => exact absurd inside (Nat.not_lt_zero _)
  | cons word words inductionHypothesis =>
      cases index with
      | zero => exact placed.1
      | succ index =>
          have rest := inductionHypothesis placed.2 (Nat.lt_of_succ_lt_succ inside)
          rw [Datum.size] at rest
          rw [show address + 4 * (index + 1) = address + 4 + 4 * index by ring]
          exact rest

section InterruptTable

variable {layout : Layout} {mem : Memory}

theorem Loaded.vector
    {vector : Nat}
    (loaded : Loaded layout mem)
    (isVector : vector < 256) :
    load mem 4 (layout.interruptVectors + 4 * vector) =
      layout.interruptStub vector := by
  have placed : Placed mem layout.interruptVectors
      (((List.range 256).map layout.interruptStub).map .dd) := by
    rw [List.map_map]
    exact loaded.vectors
  rw [placed.dd (by simpa using isVector)]
  simp

/-- The loop makes one entry after the other and nothing else. -/
theorem idtInstall_loop
    {count : Nat}
    (vectors : ∀ vector < 256,
      load mem 4 (layout.interruptVectors + 4 * vector) =
        layout.interruptStub vector)
    (isCount : count ≤ 256) :
    WritesOnly layout.idt (8 * count) mem
        ((List.range count).foldl (idtInstallGate layout) mem) ∧
      ∀ vector < count,
        readGate ((List.range count).foldl (idtInstallGate layout) mem)
          (layout.idt + 8 * vector) = layout.gate vector := by
  induction count with
  | zero =>
      exact ⟨WritesOnly.refl mem, fun _ below => absurd below (Nat.not_lt_zero _)⟩
  | succ count inductionHypothesis =>
      obtain ⟨writes, made⟩ := inductionHypothesis (Nat.le_of_succ_le isCount)
      rw [List.range_succ, List.foldl_append, List.foldl_cons, List.foldl_nil]
      generalize (List.range count).foldl (idtInstallGate layout) mem = made'
        at writes made ⊢
      have last := idtInstallGate_writes layout made' count
      refine ⟨(writes.mono (Nat.le_refl _) (by omega)).trans
        (last.mono (by omega) (by omega)), fun vector below => ?_⟩
      by_cases new : vector = count
      · subst new
        have unread := layout.pairs.1.2.2.2
        have handler : load made' 4 (layout.interruptVectors + 4 * vector) =
            layout.interruptStub vector := by
          rw [load_congr (writes.agree (by
            simp only [Area.Apart] at unread
            omega))]
          exact vectors vector isCount
        unfold idtInstallGate Layout.gate idtGate
        split
        next isSyscall =>
          subst isSyscall
          exact readGate_idtSetGate (layout.gateAddress_lt .syscallEntry)
            (by decide)
        next =>
          rw [handler]
          exact readGate_idtSetGate (layout.stubs vector) (by decide)
      · rw [readGate_congr (last.agree (by omega))]
        exact made vector (by omega)

/-- What `idt_install` leaves. -/
theorem idtInstall_installs
    (regs : TableRegisters)
    (loaded : Loaded layout mem) :
    (idtInstall layout mem regs).2 = { regs with idtr := ⟨layout.idt, 2047⟩ } ∧
      (∀ vector < 256,
        readGate (idtInstall layout mem regs).1 (layout.idt + 8 * vector) =
          layout.gate vector) ∧
      ∀ address, ¬ InRange layout.idt 2048 address →
        ¬ InRange layout.idtPtr 6 address →
        (idtInstall layout mem regs).1 address = mem address := by
  obtain ⟨⟨ptrApart, _, _, _⟩, ⟨_, _, vectorsApart⟩, _⟩ := layout.pairs
  simp only [Area.Apart] at ptrApart vectorsApart
  have base := layout.addresses layout.idt (by simp)
  simp only [idtInstall]
  have pointer : WritesOnly layout.idtPtr 6 mem
      (store (store mem 2 layout.idtPtr (8 * 256 - 1)) 4 (layout.idtPtr + 2)
        layout.idt) :=
    ((WritesOnly.refl mem).store (by omega) (by omega)).store (by omega)
      (by omega)
  have limit : load (store (store mem 2 layout.idtPtr (8 * 256 - 1)) 4
      (layout.idtPtr + 2) layout.idt) 2 layout.idtPtr = 2047 := by
    simp (disch := omega) only [load_store, load_store_of_disjoint]
    rfl
  have table : load (store (store mem 2 layout.idtPtr (8 * 256 - 1)) 4
      (layout.idtPtr + 2) layout.idt) 4 (layout.idtPtr + 2) = layout.idt := by
    rw [load_store, Nat.mod_eq_of_lt (by omega)]
  generalize store (store mem 2 layout.idtPtr (8 * 256 - 1)) 4
    (layout.idtPtr + 2) layout.idt = pointed at pointer limit table ⊢
  have vectors : ∀ vector < 256,
      load pointed 4 (layout.interruptVectors + 4 * vector) =
        layout.interruptStub vector := by
    intro vector isVector
    have unwritten : Agree (layout.interruptVectors + 4 * vector) 4 pointed mem :=
      pointer.agree (by omega)
    rw [load_congr unwritten]
    exact loaded.vector isVector
  obtain ⟨writes, gates⟩ := idtInstall_loop vectors (Nat.le_refl 256)
  generalize (List.range 256).foldl (idtInstallGate layout) pointed = installed
    at writes gates ⊢
  refine ⟨?_, gates, fun address notTable notPointer => ?_⟩
  · rw [load_congr (writes.agree (by omega)), table,
      load_congr (writes.agree (by omega)), limit]
  · exact (writes address notTable).trans (pointer address notPointer)

end InterruptTable

/-! ## The segments and the task -/

/-- What the processor finds in the global table. -/
def kernelSegment (layout : Layout) : Nat → SegmentDescriptor
  | 1 => ⟨0, 0xFFFFFFFF, 0x9A⟩
  | 2 => ⟨0, 0xFFFFFFFF, 0x92⟩
  | 3 => ⟨0, 0xFFFFFFFF, 0xFA⟩
  | 4 => ⟨0, 0xFFFFFFFF, 0xF2⟩
  | _ => ⟨layout.tss, 104, 0x8B⟩

section Segments

variable {layout : Layout} {mem : Memory}

theorem Placed.loadGdt
    (placed : Placed mem layout.gdtStart (gdtData layout))
    (regs : TableRegisters) :
    loadGdt layout mem regs = { regs with gdtr := ⟨layout.gdtStart, 47⟩ } := by
  simp only [gdtData, flatSegment, List.cons_append, List.nil_append, Placed,
    Datum.size, Datum.value, Nat.add_assoc, Nat.reduceAdd] at placed
  simp only [DescriptorTables.loadGdt, Layout.gdtDescriptor, Nat.add_assoc,
    Nat.reduceAdd, placed]

/-- The four segments that stay as they are. -/
theorem Placed.flat
    {index : Nat}
    (placed : Placed mem layout.gdtStart (gdtData layout))
    (notNull : 1 ≤ index)
    (notTask : index ≤ 4) :
    readSegment mem (layout.gdtStart + 8 * index) =
      kernelSegment layout index := by
  simp only [gdtData, flatSegment, List.cons_append, List.nil_append, Placed,
    Datum.size, Datum.value, Nat.add_assoc, Nat.reduceAdd] at placed
  have cases : index = 1 ∨ index = 2 ∨ index = 3 ∨ index = 4 := by omega
  obtain rfl | rfl | rfl | rfl := cases <;>
    simp only [readSegment, Nat.add_assoc, Nat.reduceAdd, Nat.reduceMul, placed] <;>
    rfl

/-- The descriptor of the task has its base put in. -/
theorem Placed.task
    (placed : Placed mem layout.gdtStart (gdtData layout)) :
    readSegment (tssSetDescriptor layout mem layout.tss) layout.gdtTss =
      ⟨layout.tss, 104, 0x89⟩ := by
  have base := layout.addresses layout.tss (by simp)
  simp only [gdtData, flatSegment, List.cons_append, List.nil_append, Placed,
    Datum.size, Datum.value, Nat.add_assoc, Nat.reduceAdd] at placed
  simp (disch := omega) only [readSegment, tssSetDescriptor, Layout.gdtTss,
    load_store, load_store_of_disjoint, Nat.add_assoc, Nat.reduceAdd, placed]
  rw [SegmentDescriptor.mk.injEq]
  refine ⟨?_, rfl, rfl⟩
  omega

end Segments

/-! ## After the installation -/

/-- The tables that the processor goes by. -/
structure Installed
    (layout : Layout) (kernelEsp : Nat) (mem : Memory)
    (regs : TableRegisters) : Prop where
  registers :
    regs = ⟨⟨layout.idt, 2047⟩, ⟨layout.gdtStart, 47⟩, ⟨layout.tss, 104⟩⟩
  gates : ∀ vector < 256,
    readGate mem (layout.idt + 8 * vector) = layout.gate vector
  segments : ∀ index, 1 ≤ index → index ≤ 5 →
    readSegment mem (layout.gdtStart + 8 * index) = kernelSegment layout index
  esp0 : load mem 4 (layout.tss + 4) = kernelEsp
  ss0 : load mem 2 (layout.tss + 8) = 0x10
  iomapBase : load mem 2 (layout.tss + 102) = 104

section Installation

variable {layout : Layout} {kernelEsp : Nat} {mem : Memory}

/-- The fields of the task that the processor reads. -/
theorem tssSetStack_stack (mem : Memory) (isWord : kernelEsp < 0x100000000) :
    load (tssSetStack layout mem 0x10 kernelEsp) 4 (layout.tss + 4) =
        kernelEsp ∧
      load (tssSetStack layout mem 0x10 kernelEsp) 2 (layout.tss + 8) = 0x10 := by
  constructor
  · rw [tssSetStack, load_store, Nat.mod_eq_of_lt (by omega)]
  · rw [tssSetStack, load_store_of_disjoint (by omega)]
    have word : load (store mem 4 (layout.tss + 8) 0x10) 4 (layout.tss + 8) =
        0x10 := load_store
    simp only [load] at word ⊢
    omega

/-- The task is loaded and marked as busy. -/
theorem tssFlush_loads
    {regs : TableRegisters}
    (gdtr : regs.gdtr = ⟨layout.gdtStart, 47⟩)
    (task : readSegment mem layout.gdtTss = ⟨layout.tss, 104, 0x89⟩) :
    tssFlush mem regs =
      some (store mem 1 (layout.gdtTss + 5) 0x8B,
        { regs with task := ⟨layout.tss, 104⟩ }) := by
  have named : X86.segment mem regs.gdtr 0x28 = some ⟨layout.tss, 104, 0x89⟩ := by
    rw [X86.segment, gdtr, if_pos ⟨by decide, by decide, Nat.le_refl 47⟩, ← task]
    rfl
  have available : Access.systemType 0x89 = some 9 ∧ Access.present 0x89 := by
    decide
  rw [gdtr] at named
  simp [tssFlush, loadTask, named, guard, available, gdtr, Layout.gdtTss,
    Nat.add_assoc]

/-- A new access byte changes nothing else in a descriptor. -/
theorem readSegment_store_access (mem : Memory) (address access : Nat) :
    readSegment (store mem 1 (address + 5) access) address =
      { readSegment mem address with access := access % 256 } := by
  simp (disch := omega) only [readSegment, load_store, load_store_of_disjoint]
  rfl

/-- All that `isr_install` does once there is an interrupt table. -/
def withTask (layout : Layout) (kernelEsp : Nat) (mem : Memory) : Memory :=
  tssSetStack layout
    (store (tssInit layout (tssSetDescriptor layout mem layout.tss)) 1
      (layout.gdtTss + 5) 0x8B) 0x10 kernelEsp

theorem withTask_keeps
    {address : Nat}
    (notDescriptor : ¬ InRange layout.gdtTss 8 address)
    (notTask : ¬ InRange layout.tss 104 address) :
    withTask layout kernelEsp mem address = mem address := by
  have marked : WritesOnly layout.gdtTss 8
      (tssInit layout (tssSetDescriptor layout mem layout.tss))
      (store (tssInit layout (tssSetDescriptor layout mem layout.tss)) 1
        (layout.gdtTss + 5) 0x8B) :=
    (WritesOnly.refl _).store (by omega) (by omega)
  exact ((tssSetStack_writes layout _ _ _ address notTask).trans
    (marked address notDescriptor)).trans
      ((tssInit_writes layout _ address notTask).trans
        (tssSetDescriptor_writes layout mem _ address notDescriptor))

theorem withTask_agree
    {address count : Nat}
    (notDescriptor : address + count ≤ layout.gdtTss ∨
      layout.gdtTss + 8 ≤ address)
    (notTask : address + count ≤ layout.tss ∨ layout.tss + 104 ≤ address) :
    Agree address count (withTask layout kernelEsp mem) mem := by
  intro target inside
  apply withTask_keeps <;>
    simp only [InRange] at inside ⊢ <;>
    omega

theorem Layout.gdtTss_apart (layout : Layout) :
    layout.gdtTss + 8 ≤ layout.tss ∨ layout.tss + 104 ≤ layout.gdtTss := by
  have apart := layout.pairs.2.2.1.1
  simp only [Area.Apart, gdtTss] at apart ⊢
  omega

/-- The processor finds the task where it is, marked as busy. -/
theorem withTask_descriptor
    (placed : Placed mem layout.gdtStart (gdtData layout)) :
    readSegment (withTask layout kernelEsp mem) layout.gdtTss =
      ⟨layout.tss, 104, 0x8B⟩ := by
  have outside := layout.gdtTss_apart
  rw [withTask, readSegment_congr ((tssSetStack_writes layout _ _ _).agree outside),
    readSegment_store_access,
    readSegment_congr ((tssInit_writes layout _).agree outside), placed.task]

theorem withTask_iomapBase :
    load (withTask layout kernelEsp mem) 2 (layout.tss + 102) = 104 := by
  have outside := layout.gdtTss_apart
  simp (disch := omega) only [withTask, tssSetStack, tssInit, load_store,
    load_store_of_disjoint]
  rfl

/-- `isr_install` puts the tables in place and writes nothing else. -/
theorem isrInstall_installs
    {regs : TableRegisters}
    (loaded : Loaded layout mem)
    (gdtr : regs.gdtr = ⟨layout.gdtStart, 47⟩)
    (isWord : kernelEsp < 0x100000000) :
    ∃ after tables,
      isrInstall layout kernelEsp mem regs = some (after, tables) ∧
      Installed layout kernelEsp after tables ∧
      ∀ address, ¬ InRange layout.idt 2048 address →
        ¬ InRange layout.idtPtr 6 address →
        ¬ InRange layout.gdtTss 8 address →
        ¬ InRange layout.tss 104 address →
        after address = mem address := by
  obtain ⟨⟨_, idtGdt, idtTss, _⟩, ⟨ptrGdt, _, _⟩, ⟨gdtTss, _⟩, _⟩ := layout.pairs
  simp only [Area.Apart] at idtGdt idtTss ptrGdt gdtTss
  obtain ⟨tables, gates, kept⟩ := idtInstall_installs regs loaded
  unfold isrInstall
  generalize idtInstall layout mem regs = withIdt at tables gates kept ⊢
  obtain ⟨idtMem, idtRegs⟩ := withIdt
  simp only [gdtr] at tables gates kept ⊢
  subst tables
  have placed : Placed idtMem layout.gdtStart (gdtData layout) := by
    refine loaded.gdt.congr fun address inside => kept address ?_ ?_ <;>
      simp only [InRange, gdtData_size] at inside ⊢ <;>
      omega
  have task : readSegment (tssInit layout
      (tssSetDescriptor layout idtMem layout.tss)) layout.gdtTss =
        ⟨layout.tss, 104, 0x89⟩ := by
    rw [readSegment_congr ((tssInit_writes layout _).agree ?_)]
    · exact placed.task
    · simp only [Layout.gdtTss]
      omega
  have inGdt : layout.gdtStart + 40 = layout.gdtTss := rfl
  refine ⟨withTask layout kernelEsp idtMem,
    ⟨⟨layout.idt, 2047⟩, ⟨layout.gdtStart, 47⟩, ⟨layout.tss, 104⟩⟩,
    ?_, ⟨rfl, ?_, ?_, ?_, ?_, ?_⟩, ?_⟩
  · rw [tssFlush_loads rfl task]
    rfl
  · intro vector isVector
    rw [readGate_congr (withTask_agree (by omega) (by omega))]
    exact gates vector isVector
  · intro index notNull inTable
    by_cases isTask : index = 5
    · subst isTask
      exact withTask_descriptor placed
    · rw [readSegment_congr (withTask_agree (by omega) (by omega))]
      exact placed.flat notNull (by omega)
  · exact (tssSetStack_stack _ isWord).1
  · exact (tssSetStack_stack _ isWord).2
  · exact withTask_iomapBase
  · intro address notIdt notPointer notDescriptor notTask
    exact (withTask_keeps notDescriptor notTask).trans
      (kept address notIdt notPointer)

end Installation

/-! ## What the processor does with the tables -/

/-- The first instruction behind a gate, with the frame on the stack. -/
def begin
    (entry : EntryPoint) (context : Context) (stack : Nat → Word)
    (kernelStack : Nat → Word) : Cpu :=
  let onStack (esp : Word) (stack : Nat → Word) : Cpu :=
    { gpr := context.gpr
      seg := context.seg
      esp := esp
      stack := stack
      interruptsOn := !entry.maskInterrupts && context.eflags.getLsbD 9
      written := [] }
  let cpu : Cpu :=
    match entry.stack with
    | some (_, esp) =>
        ((onStack (BitVec.ofNat 32 esp) kernelStack).push
          (context.ss.setWidth 32)).push context.esp
    | none => onStack context.esp stack
  ((cpu.push context.eflags).push (context.cs.setWidth 32)).push context.eip

/-- The privilege level of interrupted code. -/
def level (context : Context) : Nat :=
  (context.cs.setWidth 2).toNat

/-- Only `int 0x80` is for user code. -/
def Permitted (cpl : Nat) (cause : Cause) (vector : Nat) : Prop :=
  vector < 256 ∧ (cause = .instruction → cpl = 3 → vector = 0x80)

instance (cpl : Nat) (cause : Cause) (vector : Nat) :
    Decidable (Permitted cpl cause vector) :=
  inferInstanceAs (Decidable (_ ∧ _))

/-- Where an interrupt goes. -/
def entryPoint (layout : Layout) (kernelEsp cpl vector : Nat) : EntryPoint where
  level := 0
  selector := 0x08
  eip := layout.gateAddress (idtGate vector)
  stack := if cpl = 3 then some (0x10, kernelEsp) else none
  maskInterrupts := true

/-- What comes of what user code attempts. -/
def userOutcome (layout : Layout) (kernelEsp : Nat) : Escape → EscapeOutcome
  | .int vector =>
      if vector = 0x80 then .enters (entryPoint layout kernelEsp 3 0x80)
      else .refused
  | .far selector => if selector / 4 = 6 then .goesOn else .refused
  | .port _ => .refused

namespace Installed

variable {layout : Layout} {kernelEsp : Nat} {mem : Memory}
variable {regs : TableRegisters}

/-- The tables stay installed as long as their bytes are not written. -/
theorem of_sameDescriptors
    {later : Memory}
    (installed : Installed layout kernelEsp mem regs)
    (same : SameDescriptors later mem regs) :
    Installed layout kernelEsp later regs := by
  obtain rfl := installed.registers
  have ⟨idt, gdt, task⟩ := same
  have gdtBytes : Agree layout.gdtStart 48 later mem := gdt
  have idtBytes : Agree layout.idt 2048 later mem := idt
  refine ⟨rfl, fun vector isVector => ?_, fun index notNull inTable => ?_,
    ?_, ?_, ?_⟩
  · rw [readGate_congr (idtBytes.mono (by omega) (by omega))]
    exact installed.gates vector isVector
  · rw [readSegment_congr (gdtBytes.mono (by omega) (by omega))]
    exact installed.segments index notNull inTable
  · rw [load_congr (task.mono (by simp) (by simp only; omega))]
    exact installed.esp0
  · rw [load_congr (task.mono (by simp) (by simp only; omega))]
    exact installed.ss0
  · rw [load_congr (task.mono (by simp) (by simp only; omega))]
    exact installed.iomapBase

/-- What a selector names, the null selector and those past the end included. -/
theorem segment_eq
    (installed : Installed layout kernelEsp mem regs)
    (selector : Nat) :
    X86.segment mem regs.gdtr selector =
      if selector / 8 ≠ 0 ∧ selector / 4 % 2 = 0 ∧ selector / 8 ≤ 5 then
        some (kernelSegment layout (selector / 8))
      else
        none := by
  obtain rfl := installed.registers
  rw [X86.segment]
  simp only
  by_cases named : selector / 8 ≠ 0 ∧ selector / 4 % 2 = 0 ∧ selector / 8 ≤ 5
  · rw [if_pos named, if_pos ⟨named.1, named.2.1, by omega⟩,
      Nat.mul_comm (selector / 8),
      installed.segments _ (Nat.pos_of_ne_zero named.1) named.2.2]
  · rw [if_neg named, if_neg (by omega)]

theorem taskStack_eq (installed : Installed layout kernelEsp mem regs) :
    taskStack mem regs 0 = some (0x10, kernelEsp) := by
  have data : X86.segment mem regs.gdtr 0x10 = some (kernelSegment layout 2) := by
    rw [installed.segment_eq]
    rfl
  have fits : Access.dpl 0x92 = 0 ∧ Access.isWritableData 0x92 ∧
      Access.present 0x92 := by
    decide
  have ss := installed.ss0
  have esp := installed.esp0
  rw [installed.registers] at data
  simp only [installed.registers, taskStack, guard, Nat.mul_zero, Nat.zero_add,
    ss, esp, data, kernelSegment]
  simp [fits]

theorem gate
    {vector : Nat}
    (installed : Installed layout kernelEsp mem regs)
    (isVector : vector < 256) :
    InterruptGate mem regs vector (layout.gate vector) where
  inTable := by
    simp only [installed.registers]
    omega
  reads := by
    rw [installed.registers]
    exact installed.gates vector isVector
  type := by
    simp only [Layout.gate]
    split <;> decide
  present := by
    simp only [Layout.gate]
    split <;> decide

/-- Every gate leads to the code segment of the kernel. -/
theorem leadsToKernel
    (installed : Installed layout kernelEsp mem regs)
    (vector : Nat) :
    LeadsToKernel mem regs (layout.gate vector) ⟨0, 0xFFFFFFFF, 0x9A⟩ where
  names := by
    rw [show (layout.gate vector).selector = 0x08 from rfl, installed.segment_eq]
    rfl
  isCode := by decide
  level := by decide
  notConforming := by decide
  present := by decide
  inside := Nat.le_of_lt_succ (layout.gateAddress_lt (idtGate vector))

/-- What comes of every interrupt, from the kernel and from user code. -/
theorem deliver_eq
    {cpl : Nat}
    (installed : Installed layout kernelEsp mem regs)
    (isLevel : cpl = 0 ∨ cpl = 3)
    (cause : Cause)
    (vector : Nat) :
    deliver mem regs cpl cause vector =
      if Permitted cpl cause vector then
        some (entryPoint layout kernelEsp cpl vector)
      else
        none := by
  by_cases isVector : vector < 256
  swap
  · rw [if_neg fun permitted => isVector permitted.1]
    apply deliver_outside
    simp only [installed.registers]
    omega
  have gate := installed.gate isVector
  have kernel := installed.leadsToKernel vector
  obtain rfl | rfl := isLevel
  · rw [deliver_kernel gate kernel, if_pos ⟨isVector, fun _ user => by
      cases user⟩]
    rfl
  · by_cases permitted : Permitted 3 cause vector
    · have allowed : cause = .instruction →
          3 ≤ Access.dpl (layout.gate vector).access := by
        intro isInstruction
        obtain rfl := permitted.2 isInstruction rfl
        exact (by decide : 3 ≤ Access.dpl 0xEE)
      rw [if_pos permitted, deliver_inward gate kernel (by decide) allowed,
        installed.taskStack_eq]
      rfl
    · have refused : cause = .instruction ∧ vector ≠ 0x80 := by
        simpa [Permitted, isVector] using permitted
      obtain ⟨rfl, notSyscall⟩ := refused
      have above : Access.dpl (layout.gate vector).access < 3 := by
        simp only [Layout.gate, if_neg notSyscall]
        decide
      rw [if_neg permitted, deliver_refused gate above]

/-- The frame is the one with which the stubs begin. -/
theorem begin_entryPoint
    {context : Context}
    {kernelStack stack : Nat → Word}
    (vector : Nat) :
    begin (entryPoint layout kernelEsp (level context) vector) context stack
        kernelStack =
      context.enter stack (BitVec.ofNat 32 kernelEsp) kernelStack := by
  have same : level context = 3 ↔ context.cs.setWidth 2 = 3#2 := by
    rw [level, ← BitVec.toNat_inj]
    rfl
  by_cases user : context.cs.setWidth 2 = 3#2
  · rw [begin, Context.enter, if_pos user, entryPoint, if_pos (same.mpr user)]
    rfl
  · rw [begin, Context.enter, if_neg user, entryPoint, if_neg (mt same.mp user)]
    rfl

/-- User code can jump to its own code segment and to nothing else. -/
theorem farTransfer_user
    (installed : Installed layout kernelEsp mem regs)
    (selector : Nat) :
    farTransfer mem regs 3 selector =
      if selector / 4 = 6 then .code else .refused := by
  rw [farTransfer, installed.segment_eq]
  by_cases named : selector / 8 ≠ 0 ∧ selector / 4 % 2 = 0 ∧ selector / 8 ≤ 5
  · rw [if_pos named]
    have index : selector / 8 = 1 ∨ selector / 8 = 2 ∨ selector / 8 = 3 ∨
        selector / 8 = 4 ∨ selector / 8 = 5 := by
      omega
    have rpl : selector % 4 ≤ 3 := Nat.le_of_lt_succ (Nat.mod_lt _ (by decide))
    have own : selector / 4 = 6 ↔ selector / 8 = 3 := by omega
    obtain index | index | index | index | index := index <;>
      simp [own, index, kernelSegment, Access.systemType, Access.isCode,
        Access.present, Access.conforming, Access.dpl, rpl]
  · rw [if_neg named, if_neg (by omega)]

theorem not_portAllowed
    {cpl iopl : Nat}
    (installed : Installed layout kernelEsp mem regs)
    (privileged : iopl < cpl)
    (port : Nat) :
    ¬ portAllowed mem regs cpl iopl port := by
  apply X86.not_portAllowed privileged
  have base := installed.iomapBase
  simp only [installed.registers, base]
  decide

/-- The frame of `switch_to_user_mode` is accepted. -/
theorem returnOutward_user (installed : Installed layout kernelEsp mem regs) :
    returnOutward mem regs 0 0x1B 0x23 = some 3 := by
  have code : X86.segment mem regs.gdtr 0x1B = some ⟨0, 0xFFFFFFFF, 0xFA⟩ := by
    rw [installed.segment_eq]
    rfl
  have data : X86.segment mem regs.gdtr 0x23 = some ⟨0, 0xFFFFFFFF, 0xF2⟩ := by
    rw [installed.segment_eq]
    rfl
  rw [returnOutward, code, data]
  rfl

theorem outcome_user
    {iopl : Nat}
    (installed : Installed layout kernelEsp mem regs)
    (noPorts : iopl < 3)
    (escape : Escape) :
    escape.outcome mem regs 3 iopl = userOutcome layout kernelEsp escape := by
  cases escape with
  | int vector =>
      rw [Escape.outcome, installed.deliver_eq (.inr rfl), userOutcome]
      by_cases isSyscall : vector = 0x80
      · subst isSyscall
        rw [if_pos rfl, if_pos ⟨by decide, fun _ _ => rfl⟩]
      · rw [if_neg isSyscall, if_neg fun permitted =>
          isSyscall (permitted.2 rfl rfl)]
  | far selector =>
      rw [Escape.outcome, installed.farTransfer_user, userOutcome]
      by_cases own : selector / 4 = 6
      · rw [if_pos own, if_pos own]
      · rw [if_neg own, if_neg own]
  | port number =>
      exact if_neg (installed.not_portAllowed noPorts number)

end Installed

/-! ## A memory with the data -/

/-- Put data into a memory. -/
def place (mem : Memory) : Nat → List Datum → Memory
  | _, [] => mem
  | address, datum :: rest =>
      store (place mem (address + datum.size) rest) datum.size address datum.value

section Place

variable {mem : Memory} {address : Nat} {data : List Datum}

theorem place_writes :
    WritesOnly address (data.map Datum.size).sum mem (place mem address data) := by
  induction data generalizing address with
  | nil => exact WritesOnly.refl mem
  | cons datum data inductionHypothesis =>
      rw [List.map_cons, List.sum_cons]
      exact (inductionHypothesis.mono (by omega) (by omega)).store (by omega)
        (by omega)

theorem placed_place
    (fit : ∀ datum ∈ data, datum.value < 256 ^ datum.size) :
    Placed (place mem address data) address data := by
  induction data generalizing address with
  | nil => exact trivial
  | cons datum data inductionHypothesis =>
      constructor
      · rw [place, load_store, Nat.mod_eq_of_lt (fit datum (List.mem_cons_self ..))]
      · have rest : Placed (place mem (address + datum.size) data)
            (address + datum.size) data :=
          inductionHypothesis fun other member =>
            fit other (List.mem_cons_of_mem _ member)
        exact rest.congr (agree_store (.inr (Nat.le_refl _)))

end Place

/-- A kernel with its tables a page apart. -/
def demoLayout : Layout where
  idt := 0xC0140000
  idtPtr := 0xC0141000
  gdtStart := 0xC0142000
  tss := 0xC0143000
  interruptVectors := 0xC0144000
  syscallEntry := 0xC0110000
  interruptStub := fun vector => 0xC0100000 + 16 * (vector % 256)
  apart := by decide
  addresses := by decide
  stubs := fun vector => by omega

def demoImage : Memory :=
  place (place (fun _ => 0) demoLayout.interruptVectors
    (interruptVectorsData demoLayout)) demoLayout.gdtStart (gdtData demoLayout)

theorem demoImage_loaded : Loaded demoLayout demoImage where
  gdt := placed_place (by decide)
  vectors := by
    have placed : Placed (place (fun _ => 0) demoLayout.interruptVectors
        (interruptVectorsData demoLayout)) demoLayout.interruptVectors
        (interruptVectorsData demoLayout) := by
      apply placed_place
      intro datum member
      obtain ⟨vector, _, rfl⟩ := List.mem_map.mp member
      exact demoLayout.stubs vector
    refine placed.congr (place_writes.agree (.inr ?_))
    rw [gdtData_size]
    decide

/-! ## From the start of the kernel on -/

section Boot

variable {layout : Layout} {kernelEsp : Nat} {image mem : Memory}

/--
`isr_install` writes its tables and nothing else.  As long as they are not
written again, every interrupt that comes to the kernel or to user code goes to
its stub, on the stack of `isr_install` if it comes to user code; only an `int`
of user code other than `int 0x80` is refused.
-/
theorem isrInstall_delivers
    (atLgdt : Loaded layout image)
    (loaded : Loaded layout mem)
    (isWord : kernelEsp < 0x100000000)
    (regs : TableRegisters) :
    ∃ after tables,
      isrInstall layout kernelEsp mem (loadGdt layout image regs) =
        some (after, tables) ∧
      (∀ address, ¬ InRange layout.idt 2048 address →
        ¬ InRange layout.idtPtr 6 address →
        ¬ InRange layout.gdtTss 8 address →
        ¬ InRange layout.tss 104 address →
        after address = mem address) ∧
      ∀ later, SameDescriptors later after tables →
        ∀ (context : Context) (stack kernelStack : Nat → Word) (cause : Cause)
          (vector : Nat),
          level context = 0 ∨ level context = 3 →
          (deliver later tables (level context) cause vector).map
              (fun entry => (entry, begin entry context stack kernelStack)) =
            if Permitted (level context) cause vector then
              some (entryPoint layout kernelEsp (level context) vector,
                context.enter stack (BitVec.ofNat 32 kernelEsp) kernelStack)
            else
              none := by
  have gdtr : (loadGdt layout image regs).gdtr = ⟨layout.gdtStart, 47⟩ := by
    rw [atLgdt.gdt.loadGdt]
  obtain ⟨after, tables, runs, installed, kept⟩ :=
    isrInstall_installs loaded gdtr isWord
  refine ⟨after, tables, runs, kept, ?_⟩
  intro later same context stack kernelStack cause vector isLevel
  rw [(installed.of_sameDescriptors same).deliver_eq isLevel]
  by_cases permitted : Permitted (level context) cause vector
  · rw [if_pos permitted, if_pos permitted, Option.map_some,
      Installed.begin_entryPoint]
  · rw [if_neg permitted, if_neg permitted, Option.map_none]

/-- From user code, the timer and a division by zero, but not `int 0x21`. -/
theorem isrInstall_delivers_demo :
    ∃ after tables,
      isrInstall demoLayout 0xC0130000 demoImage
          (loadGdt demoLayout demoImage ⟨⟨0, 0⟩, ⟨0, 0⟩, ⟨0, 0⟩⟩) =
        some (after, tables) ∧
      (deliver after tables 3 .event 0x20).map EntryPoint.eip =
        some 0xC0100200 ∧
      (deliver after tables 3 .event 0).map EntryPoint.eip = some 0xC0100000 ∧
      deliver after tables 3 .instruction 0x21 = none := by
  obtain ⟨after, tables, runs, _, delivers⟩ := isrInstall_delivers
    demoImage_loaded demoImage_loaded (show 0xC0130000 < 0x100000000 by decide)
    ⟨⟨0, 0⟩, ⟨0, 0⟩, ⟨0, 0⟩⟩
  have same : SameDescriptors after after tables :=
    ⟨Agree.refl _, Agree.refl _, Agree.refl _⟩
  have user := delivers after same demoContext (fun _ => 0) (fun _ => 0)
  have isUser : level demoContext = 3 := rfl
  rw [isUser] at user
  refine ⟨after, tables, runs, ?_, ?_, ?_⟩
  · have timer := congrArg (Option.map fun result => result.1.eip)
      (user .event 0x20 (.inr rfl))
    rw [Option.map_map] at timer
    exact timer
  · have divide := congrArg (Option.map fun result => result.1.eip)
      (user .event 0 (.inr rfl))
    rw [Option.map_map] at divide
    exact divide
  · have int := user .instruction 0x21 (.inr rfl)
    rw [if_neg (by decide)] at int
    exact Option.map_eq_none_iff.mp int

/--
Code that `switch_to_user_mode` starts is in user mode.  What it attempts there
is refused, or leaves it in user mode, or is `int 0x80`, which comes to
`syscall_entry` and nowhere else.
-/
theorem userMode_sealed
    (atLgdt : Loaded layout image)
    (loaded : Loaded layout mem)
    (isWord : kernelEsp < 0x100000000)
    (regs : TableRegisters) :
    ∃ after tables,
      isrInstall layout kernelEsp mem (loadGdt layout image regs) =
        some (after, tables) ∧
      ∀ later, SameDescriptors later after tables →
        ∀ (pageDir entry top : Nat) (state started : KernelState)
          (frame : UserFrame),
          switchToUserMode pageDir entry top state = some (frame, started) →
          returnOutward later tables 0 frame.cs frame.ss = some 3 ∧
          ∀ escape : Escape,
            escape.outcome later tables 3 (frame.eflags / 0x1000 % 4) =
              userOutcome layout kernelEsp escape := by
  have gdtr : (loadGdt layout image regs).gdtr = ⟨layout.gdtStart, 47⟩ := by
    rw [atLgdt.gdt.loadGdt]
  obtain ⟨after, tables, runs, installed, _⟩ :=
    isrInstall_installs loaded gdtr isWord
  refine ⟨after, tables, runs, ?_⟩
  intro later same pageDir entry top state started frame switched
  obtain ⟨rfl, rfl⟩ := switched
  have stays := installed.of_sameDescriptors same
  exact ⟨stays.returnOutward_user, fun escape =>
    stays.outcome_user (show 0x202 / 0x1000 % 4 < 3 by decide) escape⟩

end Boot

theorem userMode_sealed_demo :
    ∃ after tables,
      isrInstall demoLayout 0xC0130000 demoImage
          (loadGdt demoLayout demoImage ⟨⟨0, 0⟩, ⟨0, 0⟩, ⟨0, 0⟩⟩) =
        some (after, tables) ∧
      ∀ later, SameDescriptors later after tables →
        ∀ (pageDir entry top : Nat) (state started : KernelState)
          (frame : UserFrame),
          switchToUserMode pageDir entry top state = some (frame, started) →
          returnOutward later tables 0 frame.cs frame.ss = some 3 ∧
          ∀ escape : Escape,
            escape.outcome later tables 3 (frame.eflags / 0x1000 % 4) =
              userOutcome demoLayout 0xC0130000 escape :=
  userMode_sealed demoImage_loaded demoImage_loaded (by decide) _

end MatrixOS.DescriptorTables
