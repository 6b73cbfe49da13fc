import Mathlib.Algebra.Order.BigOperators.Group.List
import MatrixOS.KmallocChain

namespace MatrixOS.Kmalloc

open ByteMemory Layout

/-!
# What the heap functions do to the chain

Each function is given its meaning on the list of blocks: the search returns
the best-fitting block of the list, and a release joins the freed block with
its free neighbours.
-/

/-! ## The search -/

/-- The block the search ends with, from the best one so far. -/
def bestFitBlock (actualSize : Nat) :
    List HeapBlock → Option HeapBlock → Option HeapBlock
  | [], best => best
  | block :: rest, best =>
      bestFitBlock actualSize rest
        (if block.isFree ∧ actualSize ≤ block.size ∧
            ∀ other ∈ best, block.size < other.size then
          some block
        else
          best)

/-- A pointer to a block, null for none. -/
def blockPtr (block : Option HeapBlock) : Nat :=
  (block.map HeapBlock.addr).getD 0

/-- The search only returns free blocks that are large enough. -/
theorem bestFitBlock_spec
    {actualSize : Nat}
    {blocks : List HeapBlock}
    {best : Option HeapBlock}
    {found : HeapBlock}
    (result : bestFitBlock actualSize blocks best = some found) :
    best = some found ∨
      found ∈ blocks ∧ found.isFree ∧ actualSize ≤ found.size := by
  induction blocks generalizing best with
  | nil =>
      exact Or.inl result
  | cons block rest inductionHypothesis =>
      rcases inductionHypothesis result with kept | ⟨member, fits⟩
      · split at kept
        · rename_i better
          obtain rfl : block = found := Option.some.inj kept
          exact Or.inr ⟨by simp, better.1, better.2.1⟩
        · exact Or.inl kept
      · exact Or.inr ⟨List.mem_cons_of_mem _ member, fits⟩

namespace Chain

variable {mem : Memory} {start : Nat}
variable {blocks before after : List HeapBlock} {block next prev : HeapBlock}

theorem header_isFree
    (chain : Chain mem start blocks)
    (member : block ∈ blocks) :
    (readHeader mem block.addr).isFree ≠ 0 ↔ block.isFree = true := by
  obtain ⟨prior, header⟩ := chain.linked.header_of_mem member
  rw [header, HeapBlock.header]
  cases block.isFree <;> simp

theorem header_size
    (chain : Chain mem start blocks)
    (member : block ∈ blocks) :
    (readHeader mem block.addr).size = block.size := by
  obtain ⟨prior, header⟩ := chain.linked.header_of_mem member
  rw [header, HeapBlock.header]

/-- The stored link of a block leads to the block behind it. -/
theorem header_next
    (chain : Chain mem start (before ++ block :: after)) :
    (readHeader mem block.addr).next = blockPtr after.head? := by
  rw [chain.header_at]
  rcases chain.next_cases (lastAddr 0 before) with
    ⟨rfl, link⟩ | ⟨next, later, rfl, link⟩
  · exact link
  · exact link

theorem length_lt_chainFuel (chain : Chain mem start blocks) :
    blocks.length < chainFuel := by
  have total := chain.contiguous.sum_eq
  have each : blocks.length * 24 ≤ (blocks.map HeapBlock.size).sum := by
    have bound := List.card_nsmul_le_sum (blocks.map HeapBlock.size) 24
      (by
        intro size member
        obtain ⟨block, inBlocks, rfl⟩ := List.mem_map.mp member
        exact (chain.sizes block inBlocks).2)
    simpa using bound
  have heapBytes : heapSize = 1048576 := rfl
  simp only [chainFuel]
  omega

/-- The search loop computes the best-fitting block. -/
theorem findBestFit_eq
    (chain : Chain mem start (before ++ after))
    {actualSize fuel : Nat}
    {best : Option HeapBlock}
    (enough : after.length < fuel)
    (candidate : ∀ other ∈ best, other ∈ before ++ after) :
    findBestFit mem actualSize fuel (blockPtr after.head?) (blockPtr best) =
      some (blockPtr (bestFitBlock actualSize after best)) := by
  induction after generalizing before best fuel with
  | nil =>
      obtain ⟨fuel, rfl⟩ : ∃ less, fuel = less + 1 := ⟨fuel - 1, by omega⟩
      rfl
  | cons block rest inductionHypothesis =>
      obtain ⟨fuel, rfl⟩ : ∃ less, fuel = less + 1 := ⟨fuel - 1, by omega⟩
      have here : blockPtr (block :: rest).head? = block.addr := rfl
      have smaller :
          (blockPtr best = 0 ∨ block.size <
              (readHeader mem (blockPtr best)).size) ↔
            ∀ other ∈ best, block.size < other.size := by
        cases best with
        | none =>
            simp [blockPtr]
        | some other =>
            have listed := candidate other rfl
            simp [blockPtr, chain.addr_ne_zero listed,
              chain.header_size listed]
      have nonzero : block.addr ≠ 0 := chain.addr_ne_zero (by simp)
      rw [here, findBestFit, if_neg nonzero]
      simp only [chain.header_size (show block ∈ _ by simp), chain.header_next,
        chain.header_isFree (show block ∈ _ by simp), smaller, ge_iff_le]
      rw [← here, show blockPtr (block :: rest).head? = blockPtr (some block)
        from rfl, ← apply_ite blockPtr]
      have further : Chain mem start ((before ++ [block]) ++ rest) := by
        simpa using chain
      refine inductionHypothesis further (by simpa using enough) ?_
      intro other chosen
      split at chosen
      · obtain rfl : block = other := Option.some.inj chosen
        simp
      · simpa using candidate other chosen

end Chain

/-! ## Joining free neighbours -/

/-- A block and the blocks behind it, after the forward merge. -/
def joinNext (block : HeapBlock) : List HeapBlock → HeapBlock × List HeapBlock
  | [] => (block, [])
  | next :: rest =>
      if next.isFree then
        ({ block with size := block.size + next.size }, rest)
      else
        (block, next :: rest)

/-- The blocks in front of a block and the block, after the backward merge. -/
def joinPrev (block : HeapBlock) : List HeapBlock → List HeapBlock
  | [] => [block]
  | [prev] =>
      if prev.isFree then [{ prev with size := prev.size + block.size }]
      else [prev, block]
  | first :: second :: rest => first :: joinPrev block (second :: rest)

theorem joinPrev_append
    (block prev : HeapBlock)
    (before : List HeapBlock) :
    joinPrev block (before ++ [prev]) =
      before ++
        if prev.isFree then [{ prev with size := prev.size + block.size }]
        else [prev, block] := by
  induction before with
  | nil =>
      rfl
  | cons first rest inductionHypothesis =>
      cases rest with
      | nil =>
          rfl
      | cons second later =>
          have later := inductionHypothesis
          simp only [List.cons_append] at later ⊢
          rw [joinPrev, later]

section Merge

variable {mem : Memory} {header other : Nat}

theorem mergeWithNext_of_not_isFree
    (stays : ¬ ((readHeader mem header).next ≠ 0 ∧
      (readHeader mem (readHeader mem header).next).isFree ≠ 0)) :
    mergeWithNext mem header = mem := by
  simp only [mergeWithNext, stays, ↓reduceIte]

theorem mergeWithNext_of_isFree
    (link : (readHeader mem header).next = other)
    (nonzero : other ≠ 0)
    (isFree : (readHeader mem other).isFree ≠ 0)
    (behind : header + headerSize ≤ other) :
    mergeWithNext mem header =
      relink mem header
        (wrap32 ((readHeader mem header).size + (readHeader mem other).size))
        (readHeader mem other).next := by
  have linkRange : (readHeader mem other).next < 2 ^ 32 :=
    load_lt mem 4 (other + 8)
  simp only [mergeWithNext, link, nonzero, isFree, ne_eq, not_false_eq_true,
    and_self, ↓reduceIte, readHeader_setNext,
    readHeader_setSize_of_apart (Or.inr behind), wrap32_of_lt linkRange]
  rfl

theorem mergeWithPrev_of_not_isFree
    (stays : ¬ ((readHeader mem header).prev ≠ 0 ∧
      (readHeader mem (readHeader mem header).prev).isFree ≠ 0)) :
    mergeWithPrev mem header = mem := by
  simp only [mergeWithPrev, stays, ↓reduceIte]

theorem mergeWithPrev_of_isFree
    (link : (readHeader mem header).prev = other)
    (nonzero : other ≠ 0)
    (isFree : (readHeader mem other).isFree ≠ 0)
    (behind : other + headerSize ≤ header) :
    mergeWithPrev mem header =
      relink mem other
        (wrap32 ((readHeader mem other).size + (readHeader mem header).size))
        (readHeader mem header).next := by
  simp only [mergeWithPrev, link, nonzero, isFree, ne_eq, not_false_eq_true,
    and_self, ↓reduceIte, readHeader_setSize_of_apart (Or.inr behind),
    readHeader_setNext_of_apart (Or.inr behind)]
  rfl

end Merge

/-- Blocks at some of the same addresses have some of the same header bytes. -/
theorem HeaderByte.mono
    {smaller larger : List HeapBlock}
    {address : Nat}
    (headerByte : HeaderByte smaller address)
    (sameAddrs : ∀ block ∈ smaller, ∃ other ∈ larger, other.addr = block.addr) :
    HeaderByte larger address := by
  obtain ⟨block, member, inside⟩ := headerByte
  obtain ⟨other, otherMember, same⟩ := sameAddrs block member
  exact ⟨other, otherMember, same ▸ inside⟩

/-- `changed` differs from `mem` at most in the headers of the blocks. -/
def OnlyHeaders (blocks : List HeapBlock) (mem changed : Memory) : Prop :=
  ∀ address, ¬ HeaderByte blocks address → changed address = mem address

namespace Chain

variable {mem : Memory} {start : Nat}
variable {before after : List HeapBlock} {block next prev : HeapBlock}

/-- The forward merge of `kfree`. -/
theorem mergeNext
    (chain : Chain mem start (before ++ block :: after)) :
    Chain (mergeWithNext mem block.addr) start
        (before ++ (joinNext block after).1 :: (joinNext block after).2) ∧
      OnlyHeaders
        (before ++ (joinNext block after).1 :: (joinNext block after).2) mem
        (mergeWithNext mem block.addr) := by
  have link := chain.header_next
  cases after with
  | nil =>
    rw [mergeWithNext_of_not_isFree (by simp [link, blockPtr])]
    exact ⟨chain, fun _ _ => rfl⟩
  | cons next rest =>
    change _ = next.addr at link
    have nextFree := chain.header_isFree (show next ∈ _ by simp)
    cases free : next.isFree with
    | false =>
        rw [mergeWithNext_of_not_isFree (by simp [link, nextFree, free]),
          joinNext, free]
        exact ⟨chain, fun _ _ => rfl⟩
    | true =>
        have size := (chain.sizes block (by simp)).2
        have bounds := chain.bounds (show block ∈ _ by simp)
        have nextBounds := chain.bounds (show next ∈ _ by simp)
        have adjacent := chain.next_addr
        have heapRange := chain.inRange
        have positive := chain.positive
        rw [mergeWithNext_of_isFree link
            (chain.addr_ne_zero (show next ∈ _ by simp))
            (nextFree.mpr free) (by simp only [headerSize]; omega),
          chain.header_size (show block ∈ _ by simp),
          chain.tail.header_at, joinNext, if_pos free]
        simp only [HeapBlock.header]
        rw [wrap32_of_lt (by omega)]
        exact ⟨chain.join 0, fun _ outside => chain.join_frame 0 outside⟩

/-- The backward merge of `kfree`. -/
theorem mergePrev
    (chain : Chain mem start (before ++ block :: after)) :
    Chain (mergeWithPrev mem block.addr) start
        (joinPrev block before ++ after) ∧
      OnlyHeaders (joinPrev block before ++ after) mem
        (mergeWithPrev mem block.addr) := by
  have link : (readHeader mem block.addr).prev = lastAddr 0 before := by
    rw [chain.header_at]
    rfl
  rcases List.eq_nil_or_concat' before with rfl | ⟨front, prev, rfl⟩
  · rw [mergeWithPrev_of_not_isFree (by simp [link, lastAddr])]
    exact ⟨chain, fun _ _ => rfl⟩
  · have prevLink : (readHeader mem block.addr).prev = prev.addr := by
      rw [link, lastAddr_append]
      rfl
    have prevFree := chain.header_isFree (show prev ∈ _ by simp)
    rw [joinPrev_append]
    cases free : prev.isFree with
    | false =>
        rw [mergeWithPrev_of_not_isFree (by simp [prevLink, prevFree, free])]
        exact ⟨by simpa using chain, fun _ _ => rfl⟩
    | true =>
        have pair : Chain mem start (front ++ prev :: block :: after) := by
          simpa using chain
        have size := (chain.sizes prev (by simp)).2
        have prevBounds := chain.bounds (show prev ∈ _ by simp)
        have bounds := chain.bounds (show block ∈ _ by simp)
        have adjacent := pair.next_addr
        have heapRange := chain.inRange
        have positive := chain.positive
        rw [mergeWithPrev_of_isFree prevLink
            (chain.addr_ne_zero (show prev ∈ _ by simp))
            (prevFree.mpr free) (by simp only [headerSize]; omega),
          chain.header_size (show prev ∈ _ by simp), chain.header_at]
        simp only [HeapBlock.header]
        rw [wrap32_of_lt (by omega)]
        have onlyHeaders :
            OnlyHeaders (front ++
                { prev with size := prev.size + block.size } :: after) mem
              (relink mem prev.addr (prev.size + block.size)
                (block.header (start + heapSize) 0).next) :=
          fun _ outside => pair.join_frame 0 outside
        exact ⟨by simpa [free, HeapBlock.header] using pair.join 0,
          by simpa [free, HeapBlock.header] using onlyHeaders⟩

end Chain

theorem joinNext_addr (block : HeapBlock) (after : List HeapBlock) :
    (joinNext block after).1.addr = block.addr := by
  cases after with
  | nil =>
      rfl
  | cons next rest =>
      rw [joinNext]
      split <;> rfl

/-- Only the block directly behind can stop being a block. -/
theorem joinNext_kept
    {block : HeapBlock} {after : List HeapBlock} {other : HeapBlock}
    (member : other ∈ after) :
    other ∈ (joinNext block after).2 ∨ after.head? = some other := by
  cases after with
  | nil =>
      simp at member
  | cons next rest =>
      rcases List.mem_cons.mp member with rfl | inRest
      · exact Or.inr rfl
      · rw [joinNext]
        split
        · exact Or.inl inRest
        · exact Or.inl member

/-- The blocks in front keep their addresses. -/
theorem joinPrev_kept
    {block : HeapBlock} {before : List HeapBlock} {other : HeapBlock}
    (member : other ∈ before) :
    ∃ kept ∈ joinPrev block before, kept.addr = other.addr := by
  rcases List.eq_nil_or_concat' before with rfl | ⟨front, prev, rfl⟩
  · simp at member
  rw [joinPrev_append]
  rcases List.mem_append.mp member with inFront | isPrev
  · exact ⟨other, List.mem_append_left _ inFront, rfl⟩
  · obtain rfl := List.mem_singleton.mp isPrev
    split
    · exact ⟨_, List.mem_append_right _ (List.mem_singleton_self _), rfl⟩
    · exact ⟨other, by simp, rfl⟩

theorem joinPrev_addrs
    {block : HeapBlock} {before : List HeapBlock} {other : HeapBlock}
    (member : other ∈ joinPrev block before) :
    ∃ old ∈ before ++ [block], old.addr = other.addr := by
  rcases List.eq_nil_or_concat' before with rfl | ⟨front, prev, rfl⟩
  · exact ⟨other, member, rfl⟩
  rw [joinPrev_append] at member
  rcases List.mem_append.mp member with inFront | isLast
  · exact ⟨other, by simp [inFront], rfl⟩
  · split at isLast
    · obtain rfl := List.mem_singleton.mp isLast
      exact ⟨prev, by simp, rfl⟩
    · exact ⟨other, by simpa using Or.inr isLast, rfl⟩

theorem joinNext_addrs
    {block : HeapBlock} {after : List HeapBlock} {other : HeapBlock}
    (member : other ∈ (joinNext block after).1 :: (joinNext block after).2) :
    ∃ old ∈ block :: after, old.addr = other.addr := by
  cases after with
  | nil =>
      exact ⟨other, member, rfl⟩
  | cons next rest =>
      rw [joinNext] at member
      split at member
      · rcases List.mem_cons.mp member with rfl | member
        · exact ⟨block, by simp, rfl⟩
        · exact ⟨other, by simp [member], rfl⟩
      · exact ⟨other, member, rfl⟩

/-! ## A whole release and a whole allocation -/

/-- The blocks after the release of the block between `before` and `after`. -/
def releaseBlocks
    (before : List HeapBlock) (block : HeapBlock) (after : List HeapBlock) :
    List HeapBlock :=
  joinPrev (joinNext { block with isFree := true } after).1 before ++
    (joinNext { block with isFree := true } after).2

/-- Memory after `kfree` of the block. -/
def freedMemory (mem : Memory) (block : HeapBlock) : Memory :=
  mergeWithPrev (mergeWithNext (setIsFree mem block.addr 1) block.addr)
    block.addr

/-- The blocks an allocation makes of the free block it takes. -/
def takeBlock (block : HeapBlock) (actualSize : Nat) : List HeapBlock :=
  if block.size ≥ actualSize + headerSize + kmallocMinSize then
    [{ block with size := actualSize, isFree := false },
      ⟨block.addr + actualSize, block.size - actualSize, true⟩]
  else
    [{ block with isFree := false }]

/-- Memory after `kmalloc` has taken a block, before it is cleared. -/
def takeMemory (mem : Memory) (block : HeapBlock) (actualSize : Nat) : Memory :=
  setIsFree
    (if block.size ≥ actualSize + headerSize + kmallocMinSize then
      splitBlock mem block.addr actualSize
    else
      mem)
    block.addr 0

/-- The size of the block an allocation returns. -/
def takenSize (block : HeapBlock) (actualSize : Nat) : Nat :=
  if block.size ≥ actualSize + headerSize + kmallocMinSize then actualSize
  else block.size

/-- A block of an allocation starts where the old one did, or it is the rest. -/
theorem takeBlock_addr
    {block other : HeapBlock} {actualSize : Nat}
    (member : other ∈ takeBlock block actualSize) :
    other.addr = block.addr ∨
      block.size ≥ actualSize + headerSize + kmallocMinSize ∧
        other.addr = block.addr + actualSize := by
  rw [takeBlock] at member
  split at member
  · rename_i room
    simp only [List.mem_cons, List.not_mem_nil, or_false] at member
    rcases member with rfl | rfl
    · exact Or.inl rfl
    · exact Or.inr ⟨room, rfl⟩
  · obtain rfl := List.mem_singleton.mp member
    exact Or.inl rfl

/-- A release makes no new starts of blocks. -/
theorem releaseBlocks_addrs
    {before after : List HeapBlock} {block other : HeapBlock}
    (member : other ∈ releaseBlocks before block after) :
    ∃ old ∈ before ++ block :: after, old.addr = other.addr := by
  have joined : ∀ {other : HeapBlock},
      other ∈ (joinNext { block with isFree := true } after).1 ::
        (joinNext { block with isFree := true } after).2 →
      ∃ old ∈ before ++ block :: after, old.addr = other.addr := by
    intro other listed
    obtain ⟨old, oldMember, same⟩ := joinNext_addrs listed
    rcases List.mem_cons.mp oldMember with rfl | inAfter
    · exact ⟨block, by simp, same⟩
    · exact ⟨old, by simp [inAfter], same⟩
  rcases List.mem_append.mp member with inFront | inBack
  · obtain ⟨old, oldMember, same⟩ := joinPrev_addrs inFront
    rcases List.mem_append.mp oldMember with inBefore | isJoined
    · exact ⟨old, List.mem_append_left _ inBefore, same⟩
    · obtain rfl := List.mem_singleton.mp isJoined
      obtain ⟨older, olderMember, sameOld⟩ :=
        joined (List.mem_cons_self ..)
      exact ⟨older, olderMember, sameOld.trans same⟩
  · exact joined (List.mem_cons_of_mem _ inBack)

namespace Chain

variable {mem : Memory} {start actualSize : Nat}
variable {blocks before after : List HeapBlock} {block other : HeapBlock}

/-- The writes of `kfree`: headers of the blocks that are left, and its own. -/
theorem release_writes
    (chain : Chain mem start (before ++ block :: after)) :
    Chain (freedMemory mem block) start (releaseBlocks before block after) ∧
      ∀ address, ¬ InRange block.addr headerSize address →
        ¬ HeaderByte (releaseBlocks before block after) address →
        freedMemory mem block address = mem address := by
  have freed : Chain (setIsFree mem block.addr 1) start
      (before ++ { block with isFree := true } :: after) :=
    chain.withFlag true
  obtain ⟨forward, forwardOnly⟩ := freed.mergeNext
  obtain ⟨backward, backwardOnly⟩ := forward.mergePrev
  rw [joinNext_addr] at backward backwardOnly
  simp only at backward backwardOnly forwardOnly
  refine ⟨backward, fun address ownHeader outside => ?_⟩
  have joined : ¬ HeaderByte (before ++
      (joinNext { block with isFree := true } after).1 ::
        (joinNext { block with isFree := true } after).2) address := by
    rintro ⟨other, member, inside⟩
    rcases List.mem_append.mp member with inBefore | inRest
    · obtain ⟨kept, keptMember, same⟩ := joinPrev_kept inBefore
      exact outside ⟨kept, List.mem_append_left _ keptMember, same ▸ inside⟩
    · rcases List.mem_cons.mp inRest with rfl | inAfter
      · rw [joinNext_addr] at inside
        exact ownHeader inside
      · exact outside ⟨other, List.mem_append_right _ inAfter, inside⟩
  exact (backwardOnly address outside).trans
    ((forwardOnly address joined).trans
      (setField_of_not_inRange ownHeader).2.1)

/-- The writes of `kfree`. -/
theorem release
    (chain : Chain mem start (before ++ block :: after)) :
    Chain (freedMemory mem block) start (releaseBlocks before block after) ∧
      OnlyHeaders (before ++ block :: after) mem (freedMemory mem block) := by
  obtain ⟨released, frame⟩ := chain.release_writes
  refine ⟨released, fun address outside => frame address ?_ ?_⟩
  · exact fun inside => outside ⟨block, by simp, inside⟩
  · exact fun inside => outside (inside.mono fun _ => releaseBlocks_addrs)

/-- The writes of `kmalloc` to headers. -/
theorem take
    (chain : Chain mem start (before ++ block :: after))
    (aligned : 8 ∣ actualSize)
    (least : 24 ≤ actualSize) :
    Chain (takeMemory mem block actualSize) start
      (before ++ (takeBlock block actualSize ++ after)) := by
  by_cases room : block.size ≥ actualSize + headerSize + kmallocMinSize
  · rw [takeMemory, takeBlock, if_pos room, if_pos room]
    simp only [headerSize, kmallocMinSize] at room
    exact (chain.split aligned least (by omega)).withFlag false
  · rw [takeMemory, takeBlock, if_neg room, if_neg room]
    exact chain.withFlag false

/-- `kmalloc` writes only headers of the blocks it leaves. -/
theorem take_onlyHeaders
    (chain : Chain mem start (before ++ block :: after))
    (least : 24 ≤ actualSize) :
    OnlyHeaders (before ++ (takeBlock block actualSize ++ after)) mem
      (takeMemory mem block actualSize) := by
  intro address outside
  by_cases room : block.size ≥ actualSize + headerSize + kmallocMinSize
  · rw [takeBlock, if_pos room] at outside
    have flag : ¬ InRange block.addr headerSize address := fun inside =>
      outside ⟨⟨block.addr, actualSize, false⟩, by simp, inside⟩
    rw [takeMemory, if_pos room, (setField_of_not_inRange flag).2.1]
    simp only [headerSize, kmallocMinSize] at room
    refine chain.split_frame least (by omega) fun inside => ?_
    refine outside (inside.mono fun other member => ?_)
    simp only [List.mem_append, List.mem_cons] at member
    rcases member with inBefore | rfl | rfl | inAfter
    · exact ⟨other, by simp [inBefore], rfl⟩
    · exact ⟨⟨block.addr, actualSize, false⟩, by simp, rfl⟩
    · exact ⟨_, by simp, rfl⟩
    · exact ⟨other, by simp [inAfter], rfl⟩
  · rw [takeBlock, if_neg room] at outside
    have flag : ¬ InRange block.addr headerSize address := fun inside =>
      outside ⟨{ block with isFree := false }, by simp, inside⟩
    rw [takeMemory, if_neg room, (setField_of_not_inRange flag).2.1]

/-- Outside headers, `kmalloc` writes only into the block it takes. -/
theorem take_frame
    (chain : Chain mem start (before ++ block :: after))
    (least : 24 ≤ actualSize)
    {target : Nat}
    (outside : ¬ HeaderByte (before ++ block :: after) target)
    (otherBlock : target ∉ block.payload) :
    takeMemory mem block actualSize target = mem target := by
  refine chain.take_onlyHeaders least target ?_
  rintro ⟨other, member, inside⟩
  simp only [List.mem_append] at member
  rcases member with inBefore | inTaken | inAfter
  · exact outside ⟨other, by simp [inBefore], inside⟩
  · rcases takeBlock_addr inTaken with same | ⟨room, atEnd⟩
    · exact outside ⟨block, by simp, same ▸ inside⟩
    · rw [atEnd] at inside
      simp only [InRange, headerSize, kmallocMinSize] at inside room
      exact otherBlock
        ⟨by simp only [headerSize]; omega, by omega⟩
  · exact outside ⟨other, by simp [inAfter], inside⟩

/-- Payload bytes are not header bytes. -/
theorem payload_not_header
    (chain : Chain mem start blocks)
    (member : block ∈ blocks)
    {address : Nat}
    (inside : address ∈ block.payload) :
    ¬ HeaderByte blocks address := by
  rintro ⟨other, otherMember, header⟩
  have blockSize := (chain.sizes block member).2
  have otherSize := (chain.sizes other otherMember).2
  obtain ⟨lower, upper⟩ := inside
  simp only [InRange, headerSize] at header lower
  have same : block = other :=
    chain.contiguous.eq_of_mem_extent member otherMember
      ⟨by omega, upper⟩ ⟨header.1, by omega⟩
  subst same
  omega

/-- Different blocks have disjoint payloads. -/
theorem payload_disjoint
    (chain : Chain mem start blocks)
    (member : block ∈ blocks)
    (otherMember : other ∈ blocks)
    (different : block ≠ other) :
    Disjoint block.payload other.payload := by
  refine Set.disjoint_left.mpr fun address inBlock inOther => different ?_
  obtain ⟨lower, upper⟩ := inBlock
  obtain ⟨otherLower, otherUpper⟩ := inOther
  simp only [headerSize] at lower otherLower
  exact chain.contiguous.eq_of_mem_extent member otherMember
    ⟨by omega, upper⟩ ⟨by omega, otherUpper⟩

end Chain

end MatrixOS.Kmalloc
