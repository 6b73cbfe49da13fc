import Mathlib.Order.Interval.Finset.Nat
import MatrixOS.PmmRuns

namespace MatrixOS

/-!
# Page frames

What the memory manager relies on when it takes single page frames from the
page allocator.
-/

/-- A page frame that is not free. -/
def Held (buddySys : Pmm.BuddySystem) (frame : Nat) : Prop :=
  frame / pageSize ∉ buddySys.freePages

/-- What `pmm_alloc_pages(0)` does when it succeeds. -/
structure Allocated
    (before : Pmm.BuddySystem) (frame : Nat) (after : Pmm.BuddySystem) :
    Prop where
  run : Pmm.pmmAllocPages before 0 = (frame, after)
  nonzero : frame ≠ 0
  aligned : 2 ^ 12 ∣ frame
  inRange : frame + 2 ^ 12 ≤ 2 ^ 32
  wasFree : frame / pageSize ∈ before.freePages
  remaining : ∀ page, page ∈ after.freePages ↔
    page ∈ before.freePages ∧ page ≠ frame / pageSize

namespace Allocated

variable {before after : Pmm.BuddySystem} {frame other : Nat}

theorem held (allocated : Allocated before frame after) : Held after frame :=
  fun free => ((allocated.remaining _).mp free).2 rfl

theorem keeps
    (allocated : Allocated before frame after)
    (held : Held before other) :
    Held after other :=
  fun free => held ((allocated.remaining _).mp free).1

theorem ne_of_held
    (allocated : Allocated before frame after)
    (held : Held before other) :
    frame ≠ other := by
  intro same
  subst same
  exact held allocated.wasFree

end Allocated

/-- The allocator is in a state that its own functions lead to. -/
def AllocatorReady (buddySys : Pmm.BuddySystem) : Prop :=
  ∃ live pool, Pmm.Invariant buddySys live pool

namespace AllocatorReady

variable {before after : Pmm.BuddySystem} {frame : Nat}

theorem allocated
    (ready : AllocatorReady before)
    (run : Pmm.pmmAllocPages before 0 = (frame, after))
    (nonzero : frame ≠ 0) :
    Allocated before frame after ∧ AllocatorReady after := by
  obtain ⟨live, pool, invariant⟩ := ready
  rcases invariant.pmmAllocPages_cases 0 with
    ⟨failed, _⟩ | ⟨_, _, _, kept⟩
  · rw [run] at failed
    exact absurd (congrArg Prod.fst failed) nonzero
  · simp only [run] at kept
    have member : (⟨frame, 0⟩ : Pmm.PageBlock) ∈
        (⟨frame, 0⟩ :: live) ++ after.freeBlocks := by simp
    have bounds := kept.addr_bounds _ member
    have aligned := Pmm.PageBlock.page_aligned (kept.aligned _ member)
    have pages : ∀ page, page ∈ (⟨frame, 0⟩ : Pmm.PageBlock).pages ↔
        page = frame / pageSize := by
      intro page
      simp only [Pmm.PageBlock.pages, Set.mem_ofPred_eq, pow_zero]
      omega
    have inPool : frame / pageSize ∈ pool :=
      kept.tiles.extent_subset member Pmm.PageBlock.first_mem_pages
    simp only [pageSize] at aligned bounds
    refine ⟨⟨run, nonzero, aligned, by omega, ?_, ?_⟩, _, _, kept⟩
    · refine invariant.mem_freePages_iff.mpr ⟨inPool, fun block held inside => ?_⟩
      exact Set.disjoint_left.mp
        (kept.tiles.head_disjoint (List.mem_append_left _ held))
        ((pages _).mpr rfl) inside
    · intro page
      rw [kept.mem_freePages_iff, invariant.mem_freePages_iff]
      simp only [List.forall_mem_cons, pages]
      tauto

/-- An allocation succeeds while a page is free. -/
theorem nonzero
    (ready : AllocatorReady before)
    (run : Pmm.pmmAllocPages before 0 = (frame, after))
    {page : Nat}
    (free : page ∈ before.freePages) :
    frame ≠ 0 := by
  obtain ⟨live, pool, invariant⟩ := ready
  intro failed
  have none : (Pmm.pmmAllocPages before 0).1 = 0 := by rw [run, failed]
  refine (invariant.pmmAllocPages_eq_zero_iff (Nat.zero_le _)).mp none
    ⟨⟨page * pageSize, 0⟩, rfl, ?_, ?_⟩
  · exact ⟨page, by rw [pow_zero, Nat.one_mul, Nat.mul_comm]⟩
  · rintro other ⟨first, last⟩
    simp only [pageSize, pow_zero] at first last
    obtain rfl : other = page := by omega
    exact free

/-- A refused allocation means that no page is free. -/
theorem freePages_of_refused
    (ready : AllocatorReady before)
    (run : Pmm.pmmAllocPages before 0 = (0, after)) :
    before.freePages = ∅ :=
  Set.eq_empty_of_forall_notMem fun _ free => ready.nonzero run free rfl

/-- An allocation succeeds, or it changes nothing. -/
theorem alloc_cases (ready : AllocatorReady before) :
    (∃ frame after, Allocated before frame after ∧ AllocatorReady after) ∨
      Pmm.pmmAllocPages before 0 = (0, before) := by
  rcases run : Pmm.pmmAllocPages before 0 with ⟨frame, after⟩
  by_cases failed : frame = 0
  · obtain ⟨live, pool, invariant⟩ := ready
    rcases invariant.pmmAllocPages_cases 0 with ⟨same, _⟩ | ⟨found, _⟩
    · exact Or.inr (run.symm.trans same)
    · rw [run] at found
      exact absurd failed found
  · obtain ⟨allocated, readyAfter⟩ := ready.allocated run failed
    exact Or.inl ⟨frame, after, allocated, readyAfter⟩

end AllocatorReady

/-! ## Enough free pages -/

/-- At least `count` pages are free. -/
def FreeAtLeast (buddySys : Pmm.BuddySystem) (count : Nat) : Prop :=
  ∃ pages : Finset Nat, count ≤ pages.card ∧
    ∀ page ∈ pages, page ∈ buddySys.freePages

/-- The pages of one free block are enough. -/
theorem freeAtLeast_of_block
    {buddySys : Pmm.BuddySystem} {addr order count : Nat}
    (inOrders : order ≤ Pmm.maxOrder)
    (listed : addr ∈ (buddySys.freeArea order).freeList)
    (enough : count ≤ 2 ^ order) :
    FreeAtLeast buddySys count := by
  refine ⟨Finset.Ico (addr / pageSize) (addr / pageSize + 2 ^ order), ?_,
    fun page member => ?_⟩
  · rwa [Nat.card_Ico, Nat.add_sub_cancel_left]
  · exact ⟨⟨addr, order⟩,
      Pmm.BuddySystem.mem_freeBlocks.mpr ⟨inOrders, listed⟩,
      Finset.mem_Ico.mp member⟩

/-- An allocation takes one of the free pages. -/
theorem FreeAtLeast.take
    {before : Pmm.BuddySystem} {count : Nat}
    (free : FreeAtLeast before (count + 1))
    (ready : AllocatorReady before) :
    ∃ frame after, Allocated before frame after ∧ AllocatorReady after ∧
      FreeAtLeast after count := by
  obtain ⟨pages, enough, allFree⟩ := free
  obtain ⟨page, member⟩ := Finset.card_pos.mp (show 0 < pages.card by omega)
  rcases run : Pmm.pmmAllocPages before 0 with ⟨frame, after⟩
  have nonzero := ready.nonzero run (allFree page member)
  obtain ⟨allocated, readyAfter⟩ := ready.allocated run nonzero
  refine ⟨frame, after, allocated, readyAfter, pages.erase (frame / pageSize),
    ?_, ?_⟩
  · have erased := Finset.pred_card_le_card_erase (s := pages)
      (a := frame / pageSize)
    omega
  · intro other rest
    obtain ⟨different, isPage⟩ := Finset.mem_erase.mp rest
    exact (allocated.remaining other).mpr ⟨allFree other isPage, different⟩

/-! ## One page after the other -/

/-- The allocator after `count` allocations of a page. -/
def remaining (buddySys : Pmm.BuddySystem) : Nat → Pmm.BuddySystem
  | 0 => buddySys
  | count + 1 => remaining (Pmm.pmmAllocPages buddySys 0).2 count

/-- The page that is handed out after `count` others. -/
def handedOut (buddySys : Pmm.BuddySystem) (count : Nat) : Nat :=
  (Pmm.pmmAllocPages (remaining buddySys count) 0).1

theorem handedOut_free
    {buddySys : Pmm.BuddySystem} {count : Nat}
    (ready : AllocatorReady buddySys)
    (free : FreeAtLeast buddySys (count + 1)) :
    2 ^ 12 ∣ handedOut buddySys count ∧
      handedOut buddySys count / pageSize ∈ buddySys.freePages := by
  induction count generalizing buddySys with
  | zero =>
      obtain ⟨frame, sys, allocated, _⟩ := free.take ready
      rw [handedOut, remaining, allocated.run]
      exact ⟨allocated.aligned, allocated.wasFree⟩
  | succ count inductionHypothesis =>
      obtain ⟨frame, sys, allocated, stillReady, left⟩ := free.take ready
      have later : handedOut buddySys (count + 1) = handedOut sys count := by
        rw [handedOut, remaining, allocated.run]
        rfl
      obtain ⟨aligned, isFree⟩ := inductionHypothesis stillReady left
      rw [later]
      exact ⟨aligned, ((allocated.remaining _).mp isFree).1⟩

/-! ## Frames taken -/

/-- The block of a single page frame. -/
def frameBlock (frame : Nat) : Pmm.PageBlock :=
  ⟨frame, 0⟩

/--
Between the two states the frames have been taken, whatever else has been
taken from the allocator.
-/
def Takes
    (before after : Pmm.BuddySystem) (frames : List Nat) : Prop :=
  ∀ live pool, Pmm.Invariant before live pool →
    Pmm.Invariant after (frames.map frameBlock ++ live) pool

namespace Takes

variable {before middle after : Pmm.BuddySystem} {frames more : List Nat}
variable {frame : Nat}

theorem refl : Takes before before [] :=
  fun _ _ invariant => invariant

theorem alloc
    (takes : Takes before middle frames)
    (allocated : Allocated middle frame after) :
    Takes before after (frame :: frames) := by
  intro live pool invariant
  rcases (takes live pool invariant).pmmAllocPages_cases 0 with
    ⟨failed, _⟩ | ⟨_, _, _, kept⟩
  · rw [allocated.run] at failed
    exact absurd (congrArg Prod.fst failed) allocated.nonzero
  · rwa [allocated.run] at kept

theorem perm
    (takes : Takes before after frames)
    (permutation : frames.Perm more) :
    Takes before after more :=
  fun live pool invariant => (takes live pool invariant).perm
    ((permutation.map frameBlock).append_right live)

/-- A frame that has been taken can be given back. -/
theorem free
    (takes : Takes before after (frame :: frames)) :
    Takes before (Pmm.pmmFreePages after frame 0) frames :=
  fun live pool invariant => (takes live pool invariant).pmmFreePages

theorem trans
    (first : Takes before middle frames)
    (second : Takes middle after more) :
    Takes before after (more ++ frames) := by
  intro live pool invariant
  have both := second _ pool (first live pool invariant)
  rwa [← List.append_assoc, ← List.map_append] at both

theorem ready
    (takes : Takes before after frames)
    (readyBefore : AllocatorReady before) :
    AllocatorReady after := by
  obtain ⟨live, pool, invariant⟩ := readyBefore
  exact ⟨_, pool, takes live pool invariant⟩

/-- The pages of the block of a frame. -/
theorem mem_frameBlock {page : Nat} :
    page ∈ (frameBlock frame).pages ↔ page = frame / pageSize := by
  simp only [frameBlock, Pmm.PageBlock.pages, Set.mem_ofPred_eq, pow_zero]
  omega

/-- The frames that have been taken are not free any more. -/
theorem mem_freePages
    (takes : Takes before after frames)
    (readyBefore : AllocatorReady before)
    {page : Nat} :
    page ∈ after.freePages ↔ page ∈ before.freePages ∧
      ∀ frame ∈ frames, page ≠ frame / pageSize := by
  obtain ⟨live, pool, invariant⟩ := readyBefore
  rw [(takes live pool invariant).mem_freePages_iff,
    invariant.mem_freePages_iff]
  simp only [List.forall_mem_append, List.forall_mem_map, mem_frameBlock]
  tauto

theorem keeps
    (takes : Takes before after frames)
    (readyBefore : AllocatorReady before)
    (held : Held before frame) :
    Held after frame :=
  fun free => held ((takes.mem_freePages readyBefore).mp free).1

theorem held
    (takes : Takes before after frames)
    (readyBefore : AllocatorReady before)
    (member : frame ∈ frames) :
    Held after frame :=
  fun free => ((takes.mem_freePages readyBefore).mp free).2 frame member rfl

/-- The frames were free and lie in different pages. -/
theorem wereFree
    (takes : Takes before after frames)
    (readyBefore : AllocatorReady before) :
    (∀ frame ∈ frames, frame / pageSize ∈ before.freePages) ∧
      (frames.map (· / pageSize)).Nodup := by
  obtain ⟨live, pool, invariant⟩ := readyBefore
  have tiles := (takes live pool invariant).tiles
  rw [List.append_assoc] at tiles
  obtain ⟨among, _, across⟩ := List.pairwise_append.mp tiles.disjoint
  constructor
  · intro frame member
    have block : frameBlock frame ∈ frames.map frameBlock :=
      List.mem_map_of_mem member
    have inBlock : frame / pageSize ∈ (frameBlock frame).pages :=
      mem_frameBlock.mpr rfl
    refine invariant.mem_freePages_iff.mpr ⟨?_, fun other held inOther => ?_⟩
    · exact tiles.extent_subset (List.mem_append_left _ block) inBlock
    · exact Set.disjoint_left.mp
        (across _ block other (List.mem_append_left _ held)) inBlock inOther
  · refine List.nodup_iff_pairwise_ne.mpr (List.pairwise_map.mpr ?_)
    refine (List.pairwise_map.mp among).imp ?_
    intro first second apart same
    exact Set.disjoint_left.mp apart (mem_frameBlock.mpr rfl)
      (mem_frameBlock.mpr same)

end Takes

end MatrixOS
