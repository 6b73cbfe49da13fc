import Mathlib.Algebra.BigOperators.Ring.List
import MatrixOS.Kmalloc
import MatrixOS.Layout

namespace MatrixOS.Kmalloc

open ByteMemory Layout

/-!
# The chain of heap blocks

The abstract heap is a list of blocks.  `Chain` says that memory holds it:
the blocks fill the heap, and every header describes its block and points to
its neighbours.  The heap operations are then three moves on lists: changing
one block, cutting one block in two, and joining two neighbours.
-/

/-! ## Header fields -/

section Headers

variable {mem : Memory} {header other value : Nat}

theorem load_store32 {address : Nat} :
    load (store mem 4 address value) 4 address = wrap32 value := by
  rw [load_store, wrap32]
  norm_num

@[simp] theorem readHeader_setSize :
    readHeader (setSize mem header value) header =
      { readHeader mem header with size := wrap32 value } := by
  simp only [readHeader, setSize, load_store32, KmallocHeader.mk.injEq,
    true_and]
  exact ⟨load_store_of_disjoint (by omega),
    load_store_of_disjoint (by omega), load_store_of_disjoint (by omega)⟩

@[simp] theorem readHeader_setIsFree :
    readHeader (setIsFree mem header value) header =
      { readHeader mem header with isFree := value % 256 } := by
  simp only [readHeader, setIsFree, load_store, KmallocHeader.mk.injEq,
    pow_one, true_and]
  exact ⟨load_store_of_disjoint (by omega),
    load_store_of_disjoint (by omega), load_store_of_disjoint (by omega)⟩

@[simp] theorem readHeader_setNext :
    readHeader (setNext mem header value) header =
      { readHeader mem header with next := wrap32 value } := by
  simp only [readHeader, setNext, load_store32, KmallocHeader.mk.injEq,
    true_and]
  exact ⟨load_store_of_disjoint (by omega),
    load_store_of_disjoint (by omega), load_store_of_disjoint (by omega)⟩

@[simp] theorem readHeader_setPrev :
    readHeader (setPrev mem header value) header =
      { readHeader mem header with prev := wrap32 value } := by
  simp only [readHeader, setPrev, load_store32, KmallocHeader.mk.injEq,
    and_true]
  exact ⟨load_store_of_disjoint (by omega),
    load_store_of_disjoint (by omega), load_store_of_disjoint (by omega)⟩

/-- A header is determined by its sixteen bytes. -/
theorem readHeader_congr
    {left right : Memory}
    (agree : Agree header headerSize left right) :
    readHeader left header = readHeader right header := by
  simp only [readHeader, KmallocHeader.mk.injEq]
  simp only [headerSize] at agree
  exact ⟨load_congr (agree.mono (by omega) (by omega)),
    load_congr (agree.mono (by omega) (by omega)),
    load_congr (agree.mono (by omega) (by omega)),
    load_congr (agree.mono (by omega) (by omega))⟩

variable
  (apart : other + headerSize ≤ header ∨ header + headerSize ≤ other)

include apart

theorem readHeader_setSize_of_apart :
    readHeader (setSize mem header value) other = readHeader mem other :=
  readHeader_congr (agree_store (by simp only [headerSize] at apart ⊢; omega))

theorem readHeader_setIsFree_of_apart :
    readHeader (setIsFree mem header value) other = readHeader mem other :=
  readHeader_congr (agree_store (by simp only [headerSize] at apart ⊢; omega))

theorem readHeader_setNext_of_apart :
    readHeader (setNext mem header value) other = readHeader mem other :=
  readHeader_congr (agree_store (by simp only [headerSize] at apart ⊢; omega))

theorem readHeader_setPrev_of_apart :
    readHeader (setPrev mem header value) other = readHeader mem other :=
  readHeader_congr (agree_store (by simp only [headerSize] at apart ⊢; omega))

end Headers

/-- A field of a header is written inside the header. -/
theorem setField_of_not_inRange
    {mem : Memory}
    {header value target : Nat}
    (outside : ¬ InRange header headerSize target) :
    setSize mem header value target = mem target ∧
      setIsFree mem header value target = mem target ∧
      setNext mem header value target = mem target ∧
      setPrev mem header value target = mem target := by
  simp only [InRange, headerSize] at outside
  refine ⟨?_, ?_, ?_, ?_⟩ <;>
    exact store_of_not_inRange (by simp only [InRange]; omega)

/-! ## Blocks -/

/-- One block of the heap, header included. -/
structure HeapBlock where
  addr : Nat
  size : Nat
  isFree : Bool
  deriving Repr, DecidableEq

/-- The header of a block in a heap that ends at `stop`. -/
def HeapBlock.header (block : HeapBlock) (stop prev : Nat) : KmallocHeader where
  size := block.size
  isFree := block.isFree.toNat
  next :=
    if block.addr + block.size = stop then 0 else block.addr + block.size
  prev := prev

/-- The headers of the blocks are in memory, behind a block at `prev`. -/
def Linked (mem : Memory) (stop : Nat) : (prev : Nat) → List HeapBlock → Prop
  | _, [] => True
  | prev, block :: rest =>
      readHeader mem block.addr = block.header stop prev ∧
        Linked mem stop block.addr rest

/-- The address of the last block, or `prev` when there is none. -/
def lastAddr (prev : Nat) : List HeapBlock → Nat
  | [] => prev
  | block :: rest => lastAddr block.addr rest

/-- `address` is a byte of the header of one of the blocks. -/
def HeaderByte (blocks : List HeapBlock) (address : Nat) : Prop :=
  ∃ block ∈ blocks, InRange block.addr headerSize address

/-- The payload bytes of a block. -/
def HeapBlock.payload (block : HeapBlock) : Set Nat :=
  {address | block.addr + headerSize ≤ address ∧
    address < block.addr + block.size}

namespace Linked

variable {mem after' : Memory} {stop prev : Nat}
variable {blocks before after : List HeapBlock}

theorem append_iff :
    Linked mem stop prev (before ++ after) ↔
      Linked mem stop prev before ∧
        Linked mem stop (lastAddr prev before) after := by
  induction before generalizing prev with
  | nil =>
      simp [Linked, lastAddr]
  | cons block rest inductionHypothesis =>
      simp only [List.cons_append, Linked, lastAddr, inductionHypothesis,
        and_assoc]

theorem congr
    {changed : Memory}
    (linked : Linked mem stop prev blocks)
    (same : ∀ block ∈ blocks,
      readHeader changed block.addr = readHeader mem block.addr) :
    Linked changed stop prev blocks := by
  induction blocks generalizing prev with
  | nil =>
      trivial
  | cons block rest inductionHypothesis =>
      refine ⟨(same block (by simp)).trans linked.1, ?_⟩
      exact inductionHypothesis linked.2
        fun later member => same later (by simp [member])

/-- Memory holds the header of every block of a linked list. -/
theorem header_of_mem
    (linked : Linked mem stop prev blocks)
    {block : HeapBlock}
    (member : block ∈ blocks) :
    ∃ prior, readHeader mem block.addr = block.header stop prior := by
  obtain ⟨before, after, rfl⟩ := List.append_of_mem member
  exact ⟨_, (append_iff.mp linked).2.1⟩

end Linked

theorem lastAddr_append (prev : Nat) (before after : List HeapBlock) :
    lastAddr prev (before ++ after) = lastAddr (lastAddr prev before) after := by
  induction before generalizing prev with
  | nil =>
      rfl
  | cons block rest inductionHypothesis =>
      exact inductionHypothesis block.addr

/-! ## The chain -/

/-- Memory holds the blocks of a heap that starts at `start`. -/
structure Chain (mem : Memory) (start : Nat) (blocks : List HeapBlock) :
    Prop where
  positive : 0 < start
  aligned : 8 ∣ start
  inRange : start + heapSize ≤ 2 ^ 32
  contiguous :
    Contiguous HeapBlock.addr HeapBlock.size start blocks (start + heapSize)
  sizes : ∀ block ∈ blocks, 8 ∣ block.size ∧ 24 ≤ block.size
  linked : Linked mem (start + heapSize) 0 blocks

namespace Chain

variable {mem : Memory} {start : Nat}
variable {blocks before middle after : List HeapBlock} {block : HeapBlock}

/-- A chain survives any change that keeps the headers. -/
theorem congr
    {changed : Memory}
    (chain : Chain mem start blocks)
    (same : ∀ address, HeaderByte blocks address →
      changed address = mem address) :
    Chain changed start blocks where
  positive := chain.positive
  aligned := chain.aligned
  inRange := chain.inRange
  contiguous := chain.contiguous
  sizes := chain.sizes
  linked := chain.linked.congr fun block member =>
    readHeader_congr fun address inside =>
      same address ⟨block, member, inside⟩

/-- Replace a stretch of blocks by another one that fills the same addresses. -/
theorem replace
    {changed : Memory}
    (middle middle' : List HeapBlock)
    (chain : Chain mem start (before ++ (middle ++ after)))
    (sameExtent : ∀ first stop,
      Contiguous HeapBlock.addr HeapBlock.size first middle stop →
        Contiguous HeapBlock.addr HeapBlock.size first middle' stop)
    (sizes : ∀ block ∈ middle', 8 ∣ block.size ∧ 24 ≤ block.size)
    (linked : Linked changed (start + heapSize) (lastAddr 0 before) middle')
    (beforeKept : ∀ block ∈ before,
      readHeader changed block.addr = readHeader mem block.addr)
    (afterHead : ∀ block ∈ after.head?,
      readHeader changed block.addr =
        { readHeader mem block.addr with
          prev := lastAddr (lastAddr 0 before) middle' })
    (afterTail : ∀ block ∈ after.tail,
      readHeader changed block.addr = readHeader mem block.addr) :
    Chain changed start (before ++ (middle' ++ after)) where
  positive := chain.positive
  aligned := chain.aligned
  inRange := chain.inRange
  contiguous := by
    obtain ⟨first, front, rest⟩ :=
      Contiguous.append_iff.mp chain.contiguous
    obtain ⟨stop, old, back⟩ := Contiguous.append_iff.mp rest
    exact Contiguous.append_iff.mpr ⟨first, front,
      Contiguous.append_iff.mpr ⟨stop, sameExtent first stop old, back⟩⟩
  sizes := by
    intro block member
    have old := chain.sizes block
    have new := sizes block
    simp only [List.mem_append] at member old
    rcases member with inBefore | inMiddle | inAfter
    · exact old (Or.inl inBefore)
    · exact new inMiddle
    · exact old (Or.inr (Or.inr inAfter))
  linked := by
    obtain ⟨front, rest⟩ := Linked.append_iff.mp chain.linked
    obtain ⟨_, back⟩ := Linked.append_iff.mp rest
    refine Linked.append_iff.mpr ⟨front.congr beforeKept,
      Linked.append_iff.mpr ⟨linked, ?_⟩⟩
    cases after with
    | nil =>
        trivial
    | cons next later =>
        refine ⟨?_, back.2.congr afterTail⟩
        rw [afterHead next rfl, back.1]
        rfl

/-! ### Around one block -/

section Around

variable {next : HeapBlock}

theorem bounds
    (chain : Chain mem start blocks)
    (member : block ∈ blocks) :
    start ≤ block.addr ∧ block.addr + block.size ≤ start + heapSize :=
  chain.contiguous.bounds member

theorem addr_dvd
    (chain : Chain mem start (before ++ block :: after)) :
    8 ∣ block.addr := by
  have filled := (Contiguous.around_iff.mp chain.contiguous).1.sum_eq
  have total : 8 ∣ (before.map HeapBlock.size).sum := by
    refine List.dvd_sum fun size member => ?_
    obtain ⟨earlier, inBefore, rfl⟩ := List.mem_map.mp member
    exact (chain.sizes earlier (List.mem_append_left _ inBefore)).1
  rw [← filled]
  exact Nat.dvd_add chain.aligned total

theorem header_at
    (chain : Chain mem start (before ++ block :: after)) :
    readHeader mem block.addr =
      block.header (start + heapSize) (lastAddr 0 before) :=
  (Linked.append_iff.mp chain.linked).2.1

theorem before_apart
    (chain : Chain mem start (before ++ block :: after))
    {earlier : HeapBlock}
    (member : earlier ∈ before) :
    earlier.addr + headerSize ≤ block.addr := by
  have ends :=
    ((Contiguous.around_iff.mp chain.contiguous).1.bounds member).2
  have size := (chain.sizes earlier (List.mem_append_left _ member)).2
  simp only [headerSize]
  omega

theorem after_apart
    (chain : Chain mem start (before ++ block :: after))
    {later : HeapBlock}
    (member : later ∈ after) :
    block.addr + block.size ≤ later.addr :=
  ((Contiguous.around_iff.mp chain.contiguous).2.bounds member).1

/-- No other block of the chain has the same address. -/
theorem addr_ne
    (chain : Chain mem start (before ++ block :: after))
    {other : HeapBlock}
    (member : other ∈ before ∨ other ∈ after) :
    other.addr ≠ block.addr := by
  rcases member with inBefore | inAfter
  · have apart := chain.before_apart inBefore
    simp only [headerSize] at apart
    omega
  · have apart := chain.after_apart inAfter
    have size := (chain.sizes block (by simp)).2
    omega

theorem next_addr
    (chain : Chain mem start (before ++ block :: next :: after)) :
    next.addr = block.addr + block.size :=
  (Contiguous.around_iff.mp chain.contiguous).2.1

theorem last_stop
    (chain : Chain mem start (before ++ [block])) :
    block.addr + block.size = start + heapSize :=
  (Contiguous.around_iff.mp chain.contiguous).2

/-- The block one further along the chain. -/
theorem tail
    (chain : Chain mem start (before ++ block :: next :: after)) :
    Chain mem start ((before ++ [block]) ++ next :: after) := by
  simpa using chain

end Around

end Chain

/-! ## Changing the flag of a block -/

theorem Chain.withFlag
    {mem : Memory} {start : Nat} {before after : List HeapBlock}
    {block : HeapBlock}
    (chain : Chain mem start (before ++ block :: after))
    (flag : Bool) :
    Chain (setIsFree mem block.addr flag.toNat) start
      (before ++ { block with isFree := flag } :: after) := by
  have size := chain.sizes block (by simp)
  have flagRange : flag.toNat % 256 = flag.toNat := by
    cases flag <;> rfl
  have behind : ∀ later ∈ after,
      block.addr + headerSize ≤ later.addr := by
    intro later member
    have apart := chain.after_apart member
    simp only [headerSize]
    omega
  have kept : ∀ later ∈ after,
      readHeader (setIsFree mem block.addr flag.toNat) later.addr =
        readHeader mem later.addr :=
    fun later member =>
      readHeader_setIsFree_of_apart (Or.inr (behind later member))
  refine Chain.replace [block] [{ block with isFree := flag }] chain
    ?_ ?_ ?_ ?_ ?_ ?_
  · exact fun first stop old => old
  · intro changed member
    rw [List.mem_singleton.mp member]
    exact size
  · refine ⟨?_, trivial⟩
    rw [readHeader_setIsFree, chain.header_at, flagRange]
    rfl
  · exact fun earlier member =>
      readHeader_setIsFree_of_apart (Or.inl (chain.before_apart member))
  · intro later member
    rw [kept later (List.mem_of_mem_head? member)]
    cases after with
    | nil =>
        simp at member
    | cons next rest =>
        obtain rfl : next = later := by simpa using member
        rw [chain.tail.header_at, lastAddr_append]
        rfl
  · exact fun later member => kept later (List.mem_of_mem_tail member)

/-! ## Joining two neighbours -/

/-- Point the block at `next`, if there is one, back to `header`. -/
def linkBack (mem : Memory) (next header : Nat) : Memory :=
  if next ≠ 0 then setPrev mem next header else mem

/-- The writes that make a block absorb the one behind it. -/
def relink (mem : Memory) (left size next : Nat) : Memory :=
  linkBack (setNext (setSize mem left size) left next) next left

section Relink

variable {mem : Memory} {header left size next other target : Nat}

theorem readHeader_linkBack
    (nonzero : next ≠ 0)
    (inRange : header < 2 ^ 32) :
    readHeader (linkBack mem next header) next =
      { readHeader mem next with prev := header } := by
  rw [linkBack, if_pos nonzero, readHeader_setPrev, wrap32_of_lt inRange]

theorem readHeader_linkBack_of_apart
    (apart : next ≠ 0 →
      other + headerSize ≤ next ∨ next + headerSize ≤ other) :
    readHeader (linkBack mem next header) other = readHeader mem other := by
  by_cases last : next = 0
  · rw [linkBack, if_neg (not_not.mpr last)]
  · rw [linkBack, if_pos last, readHeader_setPrev_of_apart (apart last)]

theorem linkBack_of_not_inRange
    (outside : next ≠ 0 → ¬ InRange next headerSize target) :
    linkBack mem next header target = mem target := by
  by_cases last : next = 0
  · rw [linkBack, if_neg (not_not.mpr last)]
  · rw [linkBack, if_pos last, (setField_of_not_inRange (outside last)).2.2.2]

theorem readHeader_relink
    (sizeRange : size < 2 ^ 32)
    (nextRange : next < 2 ^ 32)
    (behind : next ≠ 0 → left + headerSize ≤ next) :
    readHeader (relink mem left size next) left =
      { readHeader mem left with size := size, next := next } := by
  rw [relink, readHeader_linkBack_of_apart (fun last => Or.inl (behind last)),
    readHeader_setNext, readHeader_setSize, wrap32_of_lt sizeRange,
    wrap32_of_lt nextRange]

theorem readHeader_relink_next
    (leftRange : left < 2 ^ 32)
    (nonzero : next ≠ 0)
    (behind : left + headerSize ≤ next) :
    readHeader (relink mem left size next) next =
      { readHeader mem next with prev := left } := by
  rw [relink, readHeader_linkBack nonzero leftRange,
    readHeader_setNext_of_apart (Or.inr behind),
    readHeader_setSize_of_apart (Or.inr behind)]

theorem readHeader_relink_of_apart
    (leftApart : other + headerSize ≤ left ∨ left + headerSize ≤ other)
    (nextApart : next ≠ 0 →
      other + headerSize ≤ next ∨ next + headerSize ≤ other) :
    readHeader (relink mem left size next) other = readHeader mem other := by
  rw [relink, readHeader_linkBack_of_apart nextApart,
    readHeader_setNext_of_apart leftApart,
    readHeader_setSize_of_apart leftApart]

theorem relink_of_not_inRange
    (leftOutside : ¬ InRange left headerSize target)
    (nextOutside : next ≠ 0 → ¬ InRange next headerSize target) :
    relink mem left size next target = mem target := by
  rw [relink, linkBack_of_not_inRange nextOutside,
    (setField_of_not_inRange leftOutside).2.2.1,
    (setField_of_not_inRange leftOutside).1]

end Relink

namespace Chain

variable {mem : Memory} {start : Nat}
variable {before after : List HeapBlock} {block left right next : HeapBlock}

theorem header_next_last
    (chain : Chain mem start (before ++ [block])) (prev : Nat) :
    (block.header (start + heapSize) prev).next = 0 :=
  if_pos chain.last_stop

theorem header_next_cons
    (chain : Chain mem start (before ++ block :: next :: after))
    (prev : Nat) :
    (block.header (start + heapSize) prev).next = next.addr := by
  have here := chain.next_addr
  have size := chain.sizes next (by simp)
  have ends := (chain.bounds (show next ∈ _ by simp)).2
  have inside : ¬ block.addr + block.size = start + heapSize := by
    omega
  rw [HeapBlock.header, if_neg inside, here]

theorem addr_ne_zero
    {blocks : List HeapBlock}
    (chain : Chain mem start blocks)
    (member : block ∈ blocks) :
    block.addr ≠ 0 := by
  have lower := (chain.bounds member).1
  have positive := chain.positive
  omega

/-- The `next` field is null exactly at the end of the chain. -/
theorem next_cases
    (chain : Chain mem start (before ++ block :: after))
    (prev : Nat) :
    after = [] ∧ (block.header (start + heapSize) prev).next = 0 ∨
      ∃ next rest, after = next :: rest ∧
        (block.header (start + heapSize) prev).next = next.addr := by
  cases after with
  | nil =>
      exact Or.inl ⟨rfl, chain.header_next_last prev⟩
  | cons next rest =>
      exact Or.inr ⟨next, rest, rfl, chain.header_next_cons prev⟩

/-- A block that is not the last one leads to the address behind it. -/
theorem link_bounds
    (chain : Chain mem start (before ++ block :: after))
    (prev : Nat) :
    (block.header (start + heapSize) prev).next < 2 ^ 32 ∧
      ((block.header (start + heapSize) prev).next ≠ 0 →
        (block.header (start + heapSize) prev).next =
          block.addr + block.size) := by
  have bounds := chain.bounds (show block ∈ _ by simp)
  have heapRange := chain.inRange
  simp only [HeapBlock.header]
  split
  · exact ⟨by omega, fun nonzero => absurd rfl nonzero⟩
  · exact ⟨by omega, fun _ => rfl⟩

/-- The link that a join passes on leads behind the joined header. -/
theorem joinLink_range
    (chain : Chain mem start (before ++ left :: right :: after))
    (prev : Nat) :
    (right.header (start + heapSize) prev).next < 2 ^ 32 ∧
      ((right.header (start + heapSize) prev).next ≠ 0 →
        left.addr + headerSize ≤
          (right.header (start + heapSize) prev).next) := by
  have bounds := chain.tail.link_bounds prev
  refine ⟨bounds.1, fun nonzero => ?_⟩
  have adjacent := chain.next_addr
  have size := (chain.sizes left (by simp)).2
  rw [bounds.2 nonzero, adjacent]
  simp only [headerSize]
  omega

/-- After a join the left header has the size of both blocks. -/
theorem header_join
    (chain : Chain mem start (before ++ left :: right :: after))
    (prev : Nat) :
    readHeader
        (relink mem left.addr (left.size + right.size)
          (right.header (start + heapSize) prev).next) left.addr =
      HeapBlock.header { left with size := left.size + right.size }
        (start + heapSize) (lastAddr 0 before) := by
  have adjacent := chain.next_addr
  have leftBounds := chain.bounds (show left ∈ _ by simp)
  have rightBounds := chain.bounds (show right ∈ _ by simp)
  have heapRange := chain.inRange
  have positive := chain.positive
  have range := chain.joinLink_range prev
  rw [readHeader_relink (by omega) range.1 range.2, chain.header_at]
  simp only [HeapBlock.header, adjacent, Nat.add_assoc]

/-- The block behind a join points back at the joined block. -/
theorem header_join_next
    (chain : Chain mem start (before ++ left :: right :: next :: after))
    (prev : Nat) :
    readHeader
        (relink mem left.addr (left.size + right.size)
          (right.header (start + heapSize) prev).next) next.addr =
      { readHeader mem next.addr with prev := left.addr } := by
  have heapRange := chain.inRange
  have bounds := chain.bounds (show left ∈ _ by simp)
  have size := (chain.sizes left (by simp)).2
  have positive := chain.positive
  have range := (chain.joinLink_range prev).2
  rw [chain.tail.header_next_cons prev] at range ⊢
  have nonzero := chain.addr_ne_zero (show next ∈ _ by simp)
  rw [readHeader_relink_next (by omega) nonzero (range nonzero)]

/-- A join leaves the headers in front of it alone. -/
theorem header_join_before
    {earlier : HeapBlock}
    (chain : Chain mem start (before ++ left :: right :: after))
    (prev : Nat)
    (member : earlier ∈ before) :
    readHeader
        (relink mem left.addr (left.size + right.size)
          (right.header (start + heapSize) prev).next) earlier.addr =
      readHeader mem earlier.addr := by
  have apart := chain.before_apart member
  refine readHeader_relink_of_apart (Or.inl apart) fun nonzero => ?_
  have behind := (chain.joinLink_range prev).2 nonzero
  exact Or.inl (by omega)

/-- A join leaves the headers behind the next one alone. -/
theorem header_join_after
    {later : HeapBlock}
    (chain : Chain mem start (before ++ left :: right :: next :: after))
    (prev : Nat)
    (member : later ∈ after) :
    readHeader
        (relink mem left.addr (left.size + right.size)
          (right.header (start + heapSize) prev).next) later.addr =
      readHeader mem later.addr := by
  have size := (chain.sizes next (by simp)).2
  have apart := chain.tail.tail.after_apart member
  have range := (chain.joinLink_range prev).2
  rw [chain.tail.header_next_cons prev] at range ⊢
  have behind := range (chain.addr_ne_zero (by simp))
  simp only [headerSize] at behind
  refine readHeader_relink_of_apart (Or.inr ?_) fun _ => Or.inr ?_
  · simp only [headerSize]
    omega
  · simp only [headerSize]
    omega

/-- Joining two neighbours leaves a chain. -/
theorem join
    (chain : Chain mem start (before ++ left :: right :: after))
    (prev : Nat) :
    Chain
      (relink mem left.addr (left.size + right.size)
        (right.header (start + heapSize) prev).next)
      start (before ++ { left with size := left.size + right.size } :: after) := by
  have leftSize := chain.sizes left (by simp)
  have rightSize := chain.sizes right (by simp)
  refine Chain.replace [left, right]
    [{ left with size := left.size + right.size }] chain ?_ ?_
    ⟨chain.header_join prev, trivial⟩
    (fun earlier => chain.header_join_before prev) ?_ ?_
  · intro first stop old
    simp only [Contiguous] at old ⊢
    omega
  · intro changed member
    rw [List.mem_singleton.mp member]
    exact ⟨Nat.dvd_add leftSize.1 rightSize.1,
      leftSize.2.trans (Nat.le_add_right _ _)⟩
  · intro next isNext
    obtain ⟨rest, rfl⟩ := List.head?_eq_some_iff.mp isNext
    exact chain.header_join_next prev
  · intro later member
    cases after with
    | nil =>
        exact absurd member List.not_mem_nil
    | cons next rest =>
        exact chain.header_join_after prev member

/-- Joining writes only into headers of the blocks that are left. -/
theorem join_frame
    (chain : Chain mem start (before ++ left :: right :: after))
    (prev : Nat)
    {target : Nat}
    (outside : ¬ HeaderByte
      (before ++ { left with size := left.size + right.size } :: after)
      target) :
    relink mem left.addr (left.size + right.size)
      (right.header (start + heapSize) prev).next target = mem target := by
  refine relink_of_not_inRange
    (fun inside => outside
      ⟨{ left with size := left.size + right.size }, by simp, inside⟩)
    fun nonzero inside => ?_
  cases after with
  | nil =>
      exact nonzero (chain.tail.header_next_last prev)
  | cons next rest =>
      rw [chain.tail.header_next_cons prev] at inside
      exact outside ⟨next, by simp, inside⟩

end Chain

/-! ## Cutting a block in two -/

/-- Memory with a fresh free header. -/
def writeFree (mem : Memory) (header size next prev : Nat) : Memory :=
  setNext (setPrev (setIsFree (setSize mem header size) header 1) header prev)
    header next

section Split

variable {mem : Memory} {bestFit newBlock size next prev actualSize other : Nat}

theorem readHeader_writeFree
    (sizeRange : size < 2 ^ 32)
    (nextRange : next < 2 ^ 32)
    (prevRange : prev < 2 ^ 32) :
    readHeader (writeFree mem newBlock size next prev) newBlock =
      ⟨size, 1, next, prev⟩ := by
  rw [writeFree, readHeader_setNext, readHeader_setPrev,
    readHeader_setIsFree, readHeader_setSize, wrap32_of_lt sizeRange,
    wrap32_of_lt nextRange, wrap32_of_lt prevRange]

theorem readHeader_writeFree_of_apart
    (apart : other + headerSize ≤ newBlock ∨ newBlock + headerSize ≤ other) :
    readHeader (writeFree mem newBlock size next prev) other =
      readHeader mem other := by
  rw [writeFree, readHeader_setNext_of_apart apart,
    readHeader_setPrev_of_apart apart, readHeader_setIsFree_of_apart apart,
    readHeader_setSize_of_apart apart]

theorem writeFree_of_not_inRange
    {target : Nat}
    (outside : ¬ InRange newBlock headerSize target) :
    writeFree mem newBlock size next prev target = mem target := by
  rw [writeFree, (setField_of_not_inRange outside).2.2.1,
    (setField_of_not_inRange outside).2.2.2,
    (setField_of_not_inRange outside).2.1,
    (setField_of_not_inRange outside).1]

/-- Cut a free block of `size` bytes at `right` off the block at `left`. -/
def cutOff (mem : Memory) (left leftSize right size next : Nat) : Memory :=
  setNext
    (setSize (linkBack (writeFree mem right size next left) next right)
      left leftSize)
    left right

section CutOff

variable {left leftSize right target : Nat}

theorem readHeader_cutOff_left
    (leftRange : leftSize < 2 ^ 32)
    (rightRange : right < 2 ^ 32)
    (behind : left + headerSize ≤ right)
    (nextBehind : next ≠ 0 → right ≤ next) :
    readHeader (cutOff mem left leftSize right size next) left =
      { readHeader mem left with size := leftSize, next := right } := by
  have nextApart : next ≠ 0 →
      left + headerSize ≤ next ∨ next + headerSize ≤ left :=
    fun nonzero => Or.inl (behind.trans (nextBehind nonzero))
  rw [cutOff, readHeader_setNext, readHeader_setSize,
    readHeader_linkBack_of_apart nextApart,
    readHeader_writeFree_of_apart (Or.inl behind), wrap32_of_lt leftRange,
    wrap32_of_lt rightRange]

theorem readHeader_cutOff_right
    (sizeRange : size < 2 ^ 32)
    (nextRange : next < 2 ^ 32)
    (leftRange : left < 2 ^ 32)
    (behind : left + headerSize ≤ right)
    (nextBehind : next ≠ 0 → right + headerSize ≤ next) :
    readHeader (cutOff mem left leftSize right size next) right =
      ⟨size, 1, next, left⟩ := by
  rw [cutOff, readHeader_setNext_of_apart (Or.inr behind),
    readHeader_setSize_of_apart (Or.inr behind),
    readHeader_linkBack_of_apart fun nonzero => Or.inl (nextBehind nonzero),
    readHeader_writeFree sizeRange nextRange leftRange]

theorem readHeader_cutOff_next
    (rightRange : right < 2 ^ 32)
    (nonzero : next ≠ 0)
    (behind : left + headerSize ≤ right)
    (nextBehind : right + headerSize ≤ next) :
    readHeader (cutOff mem left leftSize right size next) next =
      { readHeader mem next with prev := right } := by
  have leftApart : next + headerSize ≤ left ∨ left + headerSize ≤ next := by
    omega
  rw [cutOff, readHeader_setNext_of_apart leftApart,
    readHeader_setSize_of_apart leftApart,
    readHeader_linkBack nonzero rightRange,
    readHeader_writeFree_of_apart (Or.inr nextBehind)]

theorem readHeader_cutOff_of_apart
    (leftApart : other + headerSize ≤ left ∨ left + headerSize ≤ other)
    (rightApart : other + headerSize ≤ right ∨ right + headerSize ≤ other)
    (nextApart : next ≠ 0 →
      other + headerSize ≤ next ∨ next + headerSize ≤ other) :
    readHeader (cutOff mem left leftSize right size next) other =
      readHeader mem other := by
  rw [cutOff, readHeader_setNext_of_apart leftApart,
    readHeader_setSize_of_apart leftApart,
    readHeader_linkBack_of_apart nextApart,
    readHeader_writeFree_of_apart rightApart]

theorem cutOff_of_not_inRange
    (leftOutside : ¬ InRange left headerSize target)
    (rightOutside : ¬ InRange right headerSize target)
    (nextOutside : next ≠ 0 → ¬ InRange next headerSize target) :
    cutOff mem left leftSize right size next target = mem target := by
  rw [cutOff, (setField_of_not_inRange leftOutside).2.2.1,
    (setField_of_not_inRange leftOutside).1,
    linkBack_of_not_inRange nextOutside,
    writeFree_of_not_inRange rightOutside]

end CutOff

theorem splitBlock_eq
    (room : headerSize ≤ actualSize)
    (inRange : bestFit + actualSize < 2 ^ 32) :
    splitBlock mem bestFit actualSize =
      cutOff mem bestFit actualSize (bestFit + actualSize)
        (sub32 (readHeader mem bestFit).size actualSize)
        (readHeader mem bestFit).next := by
  have apart :
      bestFit + headerSize ≤ bestFit + actualSize ∨
        bestFit + actualSize + headerSize ≤ bestFit := by
    omega
  have firstNext :
      readHeader
          (Kmalloc.setPrev
            (Kmalloc.setIsFree
              (Kmalloc.setSize mem (bestFit + actualSize)
                (sub32 (readHeader mem bestFit).size actualSize))
              (bestFit + actualSize) 1)
            (bestFit + actualSize) bestFit) bestFit =
        readHeader mem bestFit := by
    rw [readHeader_setPrev_of_apart apart, readHeader_setIsFree_of_apart apart,
      readHeader_setSize_of_apart apart]
  simp only [splitBlock, wrap32_of_lt inRange, firstNext,
    readHeader_setNext_of_apart apart]
  rfl

end Split

namespace Chain

variable {mem : Memory} {start actualSize : Nat}
variable {before after : List HeapBlock} {block : HeapBlock}

/-- What the split does to a block of a chain. -/
theorem splitBlock_eq
    (chain : Chain mem start (before ++ block :: after))
    (least : 24 ≤ actualSize)
    (room : actualSize + 24 ≤ block.size) :
    splitBlock mem block.addr actualSize =
      cutOff mem block.addr actualSize (block.addr + actualSize)
        (block.size - actualSize)
        (block.header (start + heapSize) (lastAddr 0 before)).next := by
  have bounds := chain.bounds (show block ∈ _ by simp)
  have heapRange := chain.inRange
  have positive := chain.positive
  rw [Kmalloc.splitBlock_eq (by simp only [headerSize]; omega) (by omega),
    chain.header_at]
  simp only [HeapBlock.header]
  rw [sub32_of_le (by omega) (by omega)]

/-- The link that a split passes on leads behind both halves. -/
theorem splitLink_range
    (chain : Chain mem start (before ++ block :: after))
    (room : actualSize + 24 ≤ block.size) :
    (block.header (start + heapSize) (lastAddr 0 before)).next < 2 ^ 32 ∧
      ((block.header (start + heapSize) (lastAddr 0 before)).next ≠ 0 →
        block.addr + actualSize + headerSize ≤
          (block.header (start + heapSize) (lastAddr 0 before)).next) := by
  have bounds := chain.link_bounds (lastAddr 0 before)
  refine ⟨bounds.1, fun nonzero => ?_⟩
  rw [bounds.2 nonzero]
  simp only [headerSize]
  omega

/-- After a split the first half has the size asked for. -/
theorem header_split
    (chain : Chain mem start (before ++ block :: after))
    (least : 24 ≤ actualSize)
    (room : actualSize + 24 ≤ block.size) :
    readHeader (splitBlock mem block.addr actualSize) block.addr =
      HeapBlock.header { block with size := actualSize } (start + heapSize)
        (lastAddr 0 before) := by
  have bounds := chain.bounds (show block ∈ _ by simp)
  have heapRange := chain.inRange
  have range := (chain.splitLink_range room).2
  rw [chain.splitBlock_eq least room,
    readHeader_cutOff_left (by omega) (by omega)
      (by simp only [headerSize]; omega)
      (fun nonzero => (Nat.le_add_right _ _).trans (range nonzero)),
    chain.header_at]
  simp only [HeapBlock.header]
  rw [if_neg (show block.addr + actualSize ≠ start + heapSize by omega)]

/-- After a split the second half is a free block. -/
theorem header_split_right
    (chain : Chain mem start (before ++ block :: after))
    (least : 24 ≤ actualSize)
    (room : actualSize + 24 ≤ block.size) :
    readHeader (splitBlock mem block.addr actualSize)
        (block.addr + actualSize) =
      HeapBlock.header
        ⟨block.addr + actualSize, block.size - actualSize, true⟩
        (start + heapSize) block.addr := by
  have bounds := chain.bounds (show block ∈ _ by simp)
  have heapRange := chain.inRange
  have range := chain.splitLink_range room
  have sameEnd :
      block.addr + actualSize + (block.size - actualSize) =
        block.addr + block.size := by
    omega
  rw [chain.splitBlock_eq least room,
    readHeader_cutOff_right (by omega) range.1 (by omega)
      (by simp only [headerSize]; omega) range.2]
  simp only [HeapBlock.header, sameEnd, Bool.toNat_true]

/-- The block behind a split points back at the second half. -/
theorem header_split_next
    {next : HeapBlock}
    (chain : Chain mem start (before ++ block :: next :: after))
    (least : 24 ≤ actualSize)
    (room : actualSize + 24 ≤ block.size) :
    readHeader (splitBlock mem block.addr actualSize) next.addr =
      { readHeader mem next.addr with prev := block.addr + actualSize } := by
  have bounds := chain.bounds (show block ∈ _ by simp)
  have heapRange := chain.inRange
  have range := (chain.splitLink_range room).2
  have nonzero := chain.addr_ne_zero (show next ∈ _ by simp)
  rw [chain.header_next_cons] at range
  rw [chain.splitBlock_eq least room, chain.header_next_cons,
    readHeader_cutOff_next (by omega) nonzero
      (by simp only [headerSize]; omega) (range nonzero)]

/-- A split leaves the headers in front of it alone. -/
theorem header_split_before
    {earlier : HeapBlock}
    (chain : Chain mem start (before ++ block :: after))
    (least : 24 ≤ actualSize)
    (room : actualSize + 24 ≤ block.size)
    (member : earlier ∈ before) :
    readHeader (splitBlock mem block.addr actualSize) earlier.addr =
      readHeader mem earlier.addr := by
  have apart := chain.before_apart member
  rw [chain.splitBlock_eq least room]
  refine readHeader_cutOff_of_apart (Or.inl apart) (Or.inl (by omega))
    fun nonzero => ?_
  have behind := (chain.splitLink_range room).2 nonzero
  exact Or.inl (by omega)

/-- A split leaves the headers behind the next one alone. -/
theorem header_split_after
    {next later : HeapBlock}
    (chain : Chain mem start (before ++ block :: next :: after))
    (least : 24 ≤ actualSize)
    (room : actualSize + 24 ≤ block.size)
    (member : later ∈ after) :
    readHeader (splitBlock mem block.addr actualSize) later.addr =
      readHeader mem later.addr := by
  have adjacent := chain.next_addr
  have size := (chain.sizes next (by simp)).2
  have apart := chain.tail.after_apart member
  rw [chain.splitBlock_eq least room, chain.header_next_cons]
  refine readHeader_cutOff_of_apart (Or.inr ?_) (Or.inr ?_) fun _ => Or.inr ?_
  all_goals
    simp only [headerSize]
    omega

/-- Cutting a block in two leaves a chain. -/
theorem split
    (chain : Chain mem start (before ++ block :: after))
    (aligned : 8 ∣ actualSize)
    (least : 24 ≤ actualSize)
    (room : actualSize + 24 ≤ block.size) :
    Chain (splitBlock mem block.addr actualSize) start
      (before ++ { block with size := actualSize } ::
        ⟨block.addr + actualSize, block.size - actualSize, true⟩ ::
          after) := by
  have size := chain.sizes block (by simp)
  refine Chain.replace [block]
    [{ block with size := actualSize },
      ⟨block.addr + actualSize, block.size - actualSize, true⟩] chain ?_ ?_
    ⟨chain.header_split least room, chain.header_split_right least room,
      trivial⟩
    (fun earlier => chain.header_split_before least room) ?_ ?_
  · intro first stop old
    simp only [Contiguous] at old ⊢
    omega
  · intro changed member
    simp only [List.mem_cons, List.not_mem_nil, or_false] at member
    rcases member with rfl | rfl
    · exact ⟨aligned, least⟩
    · exact ⟨Nat.dvd_sub size.1 aligned, by simp only; omega⟩
  · intro next isNext
    obtain ⟨rest, rfl⟩ := List.head?_eq_some_iff.mp isNext
    exact chain.header_split_next least room
  · intro later member
    cases after with
    | nil =>
        exact absurd member List.not_mem_nil
    | cons next rest =>
        exact chain.header_split_after least room member

/-- Cutting writes only into headers of the blocks it leaves. -/
theorem split_frame
    (chain : Chain mem start (before ++ block :: after))
    (least : 24 ≤ actualSize)
    (room : actualSize + 24 ≤ block.size)
    {target : Nat}
    (outside : ¬ HeaderByte
      (before ++ { block with size := actualSize } ::
        ⟨block.addr + actualSize, block.size - actualSize, true⟩ :: after)
      target) :
    splitBlock mem block.addr actualSize target = mem target := by
  rw [chain.splitBlock_eq least room]
  refine cutOff_of_not_inRange
    (fun inside => outside
      ⟨{ block with size := actualSize }, by simp, inside⟩)
    (fun inside => outside
      ⟨⟨block.addr + actualSize, block.size - actualSize, true⟩, by simp,
        inside⟩)
    fun nonzero inside => ?_
  rcases chain.next_cases (lastAddr 0 before) with
    ⟨_, last⟩ | ⟨next, rest, rfl, link⟩
  · exact nonzero last
  · rw [link] at inside
    exact outside ⟨next, by simp, inside⟩

end Chain

end MatrixOS.Kmalloc
