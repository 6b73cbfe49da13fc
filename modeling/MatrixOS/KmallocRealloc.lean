import MatrixOS.KmallocBestFit

namespace MatrixOS.Kmalloc

open ByteMemory Layout

/-!
# Resizing

`krealloc` keeps a pointer whose block is large enough, and else moves the
bytes to a block that `kmalloc` takes and releases the old one.
-/

/-- The bytes behind a pointer, by the size in its block's header. -/
def capacity (heap : Heap) (ptr : Nat) : Nat :=
  (readHeader heap.mem (headerFromData ptr)).size - headerSize

/-- The bytes of the block in front of which a pointer lies, header included. -/
def blockBytes (heap : Heap) (ptr : Nat) : Set Nat :=
  {address | headerFromData ptr ≤ address ∧
    address < headerFromData ptr +
      (readHeader heap.mem (headerFromData ptr)).size}

/-- `krealloc` has moved the bytes behind `ptr` to `newPtr`. -/
structure MovedTo (run : HeapRun) (ptr size newPtr : Nat) (next : Heap) :
    Prop where
  enough : size ≤ capacity next newPtr
  apart : ∀ other, run.live other ≠ none →
    Disjoint (payload next newPtr) (payload run.heap other)
  copied : ∀ offset < capacity run.heap ptr,
    next.mem (newPtr + offset) = run.heap.mem (ptr + offset)
  released : ∃ blocks, chainBlocks next = some blocks ∧
    ∀ address ∈ blockBytes run.heap ptr, ∃ block ∈ blocks,
      block.isFree = true ∧ block.addr ≤ address ∧
        address < block.addr + block.size
  untouched : ∀ other, run.live other ≠ none →
    ∀ byte ∈ payload run.heap other, next.mem byte = run.heap.mem byte

section Moved

variable {heap : Heap} {start : Nat} {live : Live} {blocks : List HeapBlock}

theorem HeapInvariant.capacity_eq
    (invariant : HeapInvariant heap start blocks live)
    {block : HeapBlock}
    (listed : block ∈ blocks) :
    capacity heap (block.addr + headerSize) = block.size - headerSize := by
  rw [capacity, (invariant.ptr_arithmetic listed).2,
    invariant.chain.header_size listed]

theorem HeapInvariant.blockBytes_eq
    (invariant : HeapInvariant heap start blocks live)
    {block : HeapBlock}
    (listed : block ∈ blocks) :
    blockBytes heap (block.addr + headerSize) =
      extent HeapBlock.addr HeapBlock.size block := by
  rw [blockBytes, (invariant.ptr_arithmetic listed).2,
    invariant.chain.header_size listed, extent]

/-- The pointer to a block in use that fits is kept. -/
theorem HeapInvariant.krealloc_keeps
    (invariant : HeapInvariant heap start blocks live)
    {block : HeapBlock}
    (listed : block ∈ blocks)
    {size : Nat}
    (positive : 0 < size)
    (fits : size ≤ capacity heap (block.addr + headerSize)) :
    krealloc heap (block.addr + headerSize) size =
      some (block.addr + headerSize, heap) := by
  have blockSize := (invariant.chain.sizes block listed).2
  rw [invariant.capacity_eq listed] at fits
  refine invariant.krealloc_fits listed (by omega) ?_
  simp only [headerSize] at fits ⊢
  omega

/-- A move, in terms of the headers in memory. -/
theorem HeapInvariant.movedTo
    {run : HeapRun}
    (invariant : HeapInvariant run.heap start blocks run.live)
    {source : HeapBlock}
    (listed : source ∈ blocks)
    (held : run.live (source.addr + headerSize) ≠ none)
    {size newPtr : Nat} {next : Heap} {blocks' : List HeapBlock}
    (moved : Moved run.heap start blocks run.live source size newPtr next
      blocks') :
    MovedTo run (source.addr + headerSize) size newPtr next := by
  have different : newPtr ≠ source.addr + headerSize := by
    rintro rfl
    exact held moved.fresh
  have granted : Function.update (Function.update run.live newPtr (some size))
      (source.addr + headerSize) none newPtr = some size := by
    rw [Function.update_of_ne different, Function.update_self]
  obtain ⟨taken, takenUsed, place, apart⟩ := moved.target
  have takenListed := (mem_usedBlocks.mp takenUsed).1
  refine ⟨?_, ?_, ?_, ⟨blocks', moved.invariant.chainBlocks_eq, ?_⟩, ?_⟩
  · obtain ⟨request, found, fits⟩ := moved.invariant.fits taken takenUsed
    rw [← place, granted] at found
    obtain rfl := Option.some.inj found
    rw [place, moved.invariant.capacity_eq takenListed]
    omega
  · intro other otherHeld
    obtain ⟨block, used, _, _, payloadEq⟩ :=
      invariant.payload_of_live otherHeld
    rw [payloadEq, place, moved.invariant.payload_of_listed takenListed]
    exact apart block used
  · intro offset inside
    rw [invariant.capacity_eq listed] at inside
    exact moved.copied offset inside
  · intro address inside
    rw [invariant.blockBytes_eq listed] at inside
    obtain ⟨block, member, free, holds⟩ := moved.released address inside
    exact ⟨block, member, free, holds.1, holds.2⟩
  · intro other otherHeld byte inside
    obtain ⟨block, used, _, _, payloadEq⟩ :=
      invariant.payload_of_live otherHeld
    rw [payloadEq] at inside
    exact moved.kept block used byte inside

end Moved

/--
In every state of a run `krealloc` of a live pointer keeps the pointer when
the request fits, changes nothing when `kmalloc` fails, and else moves the
bytes and frees the old block.
-/
theorem reachable_krealloc
    {sys : Pmm.BuddySystem}
    (granted : HeapGranted sys)
    {mem : Memory}
    {run : HeapRun}
    (reached : HeapReachable sys mem run)
    {ptr : Nat}
    (held : run.live ptr ≠ none)
    {size : Nat}
    (positive : 0 < size) :
    (size ≤ capacity run.heap ptr →
      krealloc run.heap ptr size = some (ptr, run.heap)) ∧
    (capacity run.heap ptr < size →
      ∃ newPtr middle, kmalloc run.heap size = some (newPtr, middle) ∧
        (newPtr = 0 →
          krealloc run.heap ptr size = some (0, run.heap) ∧
            HeapCall.perform run (.krealloc ptr size) = some run) ∧
        (newPtr ≠ 0 → ∃ next,
          krealloc run.heap ptr size = some (newPtr, next) ∧
            MovedTo run ptr size newPtr next)) := by
  obtain ⟨blocks, invariant⟩ := reached.invariant granted
  obtain ⟨source, used, rfl⟩ := invariant.owned ptr held
  have listed := (mem_usedBlocks.mp used).1
  refine ⟨invariant.krealloc_keeps listed positive, ?_⟩
  intro grows
  rw [invariant.capacity_eq listed] at grows
  have moves : source.size < size + headerSize := by omega
  rcases invariant.krealloc_of_lt used moves with ⟨refused, failed⟩ |
    ⟨newPtr, middle, next, blocks', result, returned, moved⟩
  · refine ⟨0, run.heap, refused, fun _ => ⟨failed, ?_⟩,
      fun nonzero => absurd rfl nonzero⟩
    have nonzero : source.addr + headerSize ≠ 0 := by
      simp only [headerSize]
      omega
    simp only [HeapCall.perform, failed, Option.bind_eq_bind,
      Option.bind_some,
      regrant_failed nonzero (Nat.pos_iff_ne_zero.mp positive)]
  · exact ⟨newPtr, middle, result, fun zero => absurd zero moved.nonzero,
      fun _ => ⟨next, returned, invariant.movedTo listed held moved⟩⟩

/-- The first pointer of a run, resized to 200 bytes. -/
theorem reachable_krealloc_boot :
    ∃ (run : HeapRun) (ptr : Nat), run.live ptr = some 100 ∧
      ((200 ≤ capacity run.heap ptr →
        krealloc run.heap ptr 200 = some (ptr, run.heap)) ∧
      (capacity run.heap ptr < 200 →
        ∃ newPtr middle, kmalloc run.heap 200 = some (newPtr, middle) ∧
          (newPtr = 0 →
            krealloc run.heap ptr 200 = some (0, run.heap) ∧
              HeapCall.perform run (.krealloc ptr 200) = some run) ∧
          (newPtr ≠ 0 → ∃ next,
            krealloc run.heap ptr 200 = some (newPtr, next) ∧
              MovedTo run ptr 200 newPtr next))) := by
  obtain ⟨run, performed, ptr, held, _⟩ :=
    first_kmalloc bootSys_granted fun _ => 0
  exact ⟨run, ptr, held, reachable_krealloc bootSys_granted
    (.call (.kmalloc 100) .init trivial performed) (by simp [held])
    (by decide)⟩

end MatrixOS.Kmalloc
