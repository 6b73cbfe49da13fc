import MatrixOS.Pmm
import MatrixOS.StringLib

namespace MatrixOS.Kmalloc

open ByteMemory

/-!
# The kernel heap

`kernel/mm/kmalloc.c` cuts one block of the page allocator into a chain of
blocks, each with a 16-byte header in front of its payload.  The headers are
bytes of the same memory as the payloads.

A call that never returns (a held lock, a chain that does not end) is `none`.
-/

/-- `KMALLOC_MIN_SIZE`. -/
def kmallocMinSize : Nat := 16

/-- `KMALLOC_MAX_SIZE`. -/
def kmallocMaxSize : Nat := 4 * 1024 * 1024

/-- `sizeof(struct kmalloc_header)` with the padding behind `is_free`. -/
def headerSize : Nat := 16

/-- Bytes of the heap: 256 pages. -/
def heapSize : Nat := 256 * pageSize

/-- `struct kmalloc_header`. -/
structure KmallocHeader where
  size : Nat
  isFree : Nat
  next : Nat
  prev : Nat
  deriving Repr, DecidableEq

/-! ## Headers in memory -/

/-- The header at an address. -/
def readHeader (mem : Memory) (header : Nat) : KmallocHeader where
  size := load mem 4 header
  isFree := load mem 1 (header + 4)
  next := load mem 4 (header + 8)
  prev := load mem 4 (header + 12)

def setSize (mem : Memory) (header value : Nat) : Memory :=
  store mem 4 header value

def setIsFree (mem : Memory) (header value : Nat) : Memory :=
  store mem 1 (header + 4) value

def setNext (mem : Memory) (header value : Nat) : Memory :=
  store mem 4 (header + 8) value

def setPrev (mem : Memory) (header value : Nat) : Memory :=
  store mem 4 (header + 12) value

/-- `HEADER_FROM_DATA`. -/
def headerFromData (ptr : Nat) : Nat :=
  sub32 ptr headerSize

/-- `DATA_FROM_HEADER`. -/
def dataFromHeader (header : Nat) : Nat :=
  wrap32 (header + headerSize)

/-- `ALIGN_UP(x, 8)`. -/
def alignUp8 (value : Nat) : Nat :=
  wrap32 (value + 8 - 1) &&& not32 (8 - 1)

/-- `struct heap_manager`, with the memory its pointers lead into. -/
structure Heap where
  mem : Memory
  lock : Bool
  head : Nat
  totalAllocated : Nat
  totalFreed : Nat
  currentUsage : Nat

/-- `spinlock_acquire`: on one processor a held lock is never released. -/
def Heap.acquire (heap : Heap) : Option Heap :=
  if heap.lock then none else some { heap with lock := true }

/-- `spinlock_release`. -/
def Heap.release (heap : Heap) : Heap :=
  { heap with lock := false }

/-! ## Initialisation -/

/-- `kmalloc_init`. -/
def kmallocInit (sys : Pmm.BuddySystem) (mem : Memory) :
    Heap × Pmm.BuddySystem :=
  let initialPages := 256
  let (heapStart, sys) := Pmm.pmmAllocPages sys 8
  let mem := setSize mem heapStart (initialPages * pageSize)
  let mem := setIsFree mem heapStart 1
  let mem := setNext mem heapStart 0
  let mem := setPrev mem heapStart 0
  ({ mem := mem
     lock := false
     head := heapStart
     totalAllocated := 0
     totalFreed := 0
     currentUsage := 0 }, sys)

/-! ## Allocation -/

/--
The search loop of `kmalloc`.  Only a chain that never ends has more blocks
than there are addresses, so running out of `chainFuel` steps is not returning.
-/
def findBestFit (mem : Memory) (actualSize : Nat) :
    (fuel current bestFit : Nat) → Option Nat
  | 0, _, _ => none
  | fuel + 1, current, bestFit =>
      if current = 0 then
        some bestFit
      else
        let block := readHeader mem current
        let better :=
          block.isFree ≠ 0 ∧ block.size ≥ actualSize ∧
            (bestFit = 0 ∨ block.size < (readHeader mem bestFit).size)
        findBestFit mem actualSize fuel block.next
          (if better then current else bestFit)

/-- More steps than a chain without repetition can have. -/
@[irreducible] def chainFuel : Nat := 4294967296

/-- The split branch of `kmalloc`. -/
def splitBlock (mem : Memory) (bestFit actualSize : Nat) : Memory :=
  let newBlock := wrap32 (bestFit + actualSize)
  let mem :=
    setSize mem newBlock (sub32 (readHeader mem bestFit).size actualSize)
  let mem := setIsFree mem newBlock 1
  let mem := setPrev mem newBlock bestFit
  let mem := setNext mem newBlock (readHeader mem bestFit).next
  let mem :=
    if (readHeader mem bestFit).next ≠ 0 then
      setPrev mem (readHeader mem bestFit).next newBlock
    else
      mem
  let mem := setSize mem bestFit actualSize
  setNext mem bestFit newBlock

/-- The bytes a block needs for a request. -/
def actualSizeFor (size : Nat) : Nat :=
  alignUp8 (wrap32 (size + headerSize))

/-- `kmalloc`: the pointer it returns, 0 for `NULL`. -/
def kmalloc (heap : Heap) (size : Nat) : Option (Nat × Heap) :=
  if size = 0 then
    some (0, heap)
  else if size > kmallocMaxSize then
    some (0, heap)
  else do
    let heap ← heap.acquire
    let actualSize := actualSizeFor size
    let bestFit ← findBestFit heap.mem actualSize chainFuel heap.head 0
    if bestFit ≠ 0 then
      let mem :=
        if (readHeader heap.mem bestFit).size ≥
            wrap32 (actualSize + headerSize + kmallocMinSize) then
          splitBlock heap.mem bestFit actualSize
        else
          heap.mem
      let mem := setIsFree mem bestFit 0
      let result := dataFromHeader bestFit
      let mem := memsetFlat mem result 0 size
      let heap := { heap with
        mem := mem
        totalAllocated := wrap32 (heap.totalAllocated + size)
        currentUsage :=
          wrap32 (heap.currentUsage + (readHeader mem bestFit).size) }
      some (result, heap.release)
    else
      some (0, heap.release)

/-! ## Release -/

/-- `kfree` joins a freed block with the block behind it. -/
def mergeWithNext (mem : Memory) (header : Nat) : Memory :=
  let next := (readHeader mem header).next
  if next ≠ 0 ∧ (readHeader mem next).isFree ≠ 0 then
    let mem := setSize mem header
      (wrap32 ((readHeader mem header).size + (readHeader mem next).size))
    let mem := setNext mem header (readHeader mem next).next
    if (readHeader mem header).next ≠ 0 then
      setPrev mem (readHeader mem header).next header
    else
      mem
  else
    mem

/-- `kfree` joins a freed block with the block in front of it. -/
def mergeWithPrev (mem : Memory) (header : Nat) : Memory :=
  let prev := (readHeader mem header).prev
  if prev ≠ 0 ∧ (readHeader mem prev).isFree ≠ 0 then
    let mem := setSize mem prev
      (wrap32 ((readHeader mem prev).size + (readHeader mem header).size))
    let mem := setNext mem prev (readHeader mem header).next
    if (readHeader mem header).next ≠ 0 then
      setPrev mem (readHeader mem header).next (readHeader mem header).prev
    else
      mem
  else
    mem

/-- `kfree`. -/
def kfree (heap : Heap) (ptr : Nat) : Option Heap :=
  if ptr = 0 then
    some heap
  else do
    let heap ← heap.acquire
    let header := headerFromData ptr
    if (readHeader heap.mem header).isFree ≠ 0 then
      some heap.release
    else
      let size := (readHeader heap.mem header).size
      let heap := { heap with
        totalFreed := wrap32 (heap.totalFreed + sub32 size headerSize)
        currentUsage := sub32 heap.currentUsage size
        mem := setIsFree heap.mem header 1 }
      let heap := { heap with mem := mergeWithNext heap.mem header }
      let heap := { heap with mem := mergeWithPrev heap.mem header }
      some heap.release

/-! ## The other allocation functions -/

/-- `kcalloc`: the product of its arguments wraps at 32 bits. -/
def kcalloc (heap : Heap) (num size : Nat) : Option (Nat × Heap) := do
  let totalSize := wrap32 (num * size)
  let (ptr, heap) ← kmalloc heap totalSize
  if ptr ≠ 0 then
    some (ptr, { heap with mem := memsetFlat heap.mem ptr 0 totalSize })
  else
    some (ptr, heap)

/-- `krealloc`. -/
def krealloc (heap : Heap) (ptr size : Nat) : Option (Nat × Heap) :=
  if ptr = 0 then
    kmalloc heap size
  else if size = 0 then do
    let heap ← kfree heap ptr
    some (0, heap)
  else
    let header := headerFromData ptr
    let oldSize := sub32 (readHeader heap.mem header).size headerSize
    if size ≤ oldSize then
      some (ptr, heap)
    else do
      let (newPtr, heap) ← kmalloc heap size
      if newPtr = 0 then
        some (0, heap)
      else
        let heap := { heap with mem := memcpyFlat heap.mem newPtr ptr oldSize }
        let heap ← kfree heap ptr
        some (newPtr, heap)

end MatrixOS.Kmalloc
