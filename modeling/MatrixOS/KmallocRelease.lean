import MatrixOS.KmallocRuns

namespace MatrixOS.Kmalloc

open Layout

/-!
# Giving everything back

Free blocks are joined at once, so a heap whose pointers have all been freed
is one free block again, whatever the order of the calls.
-/

/-- No two consecutive blocks of a chain are both free. -/
def NoFreeNeighbours (heap : Heap) (chain : List Nat) : Prop :=
  chain.IsChain fun left right =>
    ¬ ((readHeader heap.mem left).isFree ≠ 0 ∧
      (readHeader heap.mem right).isFree ≠ 0)

/-- The heap is one free block. -/
structure OneFreeBlock (start : Nat) (heap : Heap) : Prop where
  chain : walkChain heap.mem chainFuel heap.head = some [start]
  size : (readHeader heap.mem start).size = 2 ^ 20
  free : (readHeader heap.mem start).isFree ≠ 0
  usage : heap.currentUsage = 0

/-- `kfree` of one pointer after the other. -/
def freeAll (run : HeapRun) (ptrs : List Nat) : Option HeapRun :=
  ptrs.foldlM (fun run ptr => HeapCall.perform run (.kfree ptr)) run

section Joined

variable {heap : Heap} {start : Nat} {live : Live} {blocks : List HeapBlock}

theorem HeapInvariant.noFreeNeighbours
    (invariant : HeapInvariant heap start blocks live)
    (coalesced : Coalesced blocks) :
    NoFreeNeighbours heap (blocks.map HeapBlock.addr) := by
  rw [NoFreeNeighbours, List.isChain_map]
  refine List.IsChain.imp_of_mem_imp ?_ coalesced
  intro left right leftMember rightMember apart both
  rw [invariant.chain.header_isFree leftMember,
    invariant.chain.header_isFree rightMember] at both
  exact apart (by simpa using both)

/-- Without live pointers there is one block, and it is free. -/
theorem HeapInvariant.oneFreeBlock
    (invariant : HeapInvariant heap start blocks live)
    (coalesced : Coalesced blocks)
    (none : ∀ ptr, live ptr = none) :
    OneFreeBlock start heap := by
  have heapBytes : heapSize = 1048576 := rfl
  have free : ∀ block ∈ blocks, block.isFree = true := by
    intro block member
    by_contra used
    obtain ⟨request, held, _⟩ := invariant.fits block
      (mem_usedBlocks.mpr ⟨member, by simpa using used⟩)
    rw [none] at held
    cases held
  have usage : usedBytes blocks = 0 := by
    have noneUsed : usedBlocks blocks = [] := by
      rw [usedBlocks, List.filter_eq_nil_iff]
      intro block member
      simp [free block member]
    rw [usedBytes, noneUsed]
    rfl
  have layout := invariant.chain.contiguous
  have visited := invariant.tilesHeap.visited
  cases blocks with
  | nil =>
      have same : start = start + heapSize := layout
      omega
  | cons block rest =>
      cases rest with
      | cons next later =>
          have apart := (List.isChain_cons_cons.mp coalesced).1
          exact absurd ⟨free block (by simp), free next (by simp)⟩ apart
      | nil =>
          obtain ⟨first, last⟩ := layout
          have whole : start + block.size = start + heapSize := last
          have listed : block ∈ [block] := by simp
          have size := invariant.chain.header_size listed
          have flag := invariant.chain.header_isFree listed
          rw [first] at size flag
          refine ⟨?_, by omega, ?_, invariant.usage.trans usage⟩
          · rw [visited]
            exact congrArg (fun addr => some [addr]) first
          · simp [flag, free block listed]

end Joined

/-- Freeing pointers that are live, each of them once. -/
theorem freeAll_returns
    {run : HeapRun} {start : Nat} {blocks : List HeapBlock} {ptrs : List Nat}
    (invariant : HeapInvariant run.heap start blocks run.live)
    (coalesced : Coalesced blocks)
    (distinct : ptrs.Nodup)
    (held : ∀ ptr ∈ ptrs, run.live ptr ≠ none) :
    ∃ next blocks',
      freeAll run ptrs = some next ∧
      HeapInvariant next.heap start blocks' next.live ∧
      Coalesced blocks' ∧
      ∀ ptr, next.live ptr = if ptr ∈ ptrs then none else run.live ptr := by
  induction ptrs generalizing run blocks with
  | nil =>
      exact ⟨run, blocks, rfl, invariant, coalesced, fun ptr => by simp⟩
  | cons first rest inductionHypothesis =>
      obtain ⟨notAgain, restDistinct⟩ := List.nodup_cons.mp distinct
      have firstHeld := held first (by simp)
      have nonzero : first ≠ 0 := by
        rintro rfl
        exact firstHeld invariant.live_zero
      obtain ⟨heap, after, result, kept, _, stays⟩ :=
        invariant.kfree_returns (Or.inr firstHeld)
      have performed : HeapCall.perform run (.kfree first) =
          some ⟨heap, revoke run.live first⟩ := by
        simp [HeapCall.perform, result]
      have restHeld : ∀ ptr ∈ rest, revoke run.live first ptr ≠ none := by
        intro ptr member
        have different : ptr ≠ first := by
          rintro rfl
          exact notAgain member
        rw [revoke_of_ne_zero nonzero, Function.update_of_ne different]
        exact held ptr (List.mem_cons_of_mem _ member)
      obtain ⟨next, blocks', final, lastInvariant, lastCoalesced, liveIs⟩ :=
        @inductionHypothesis ⟨heap, revoke run.live first⟩ after kept
          (stays coalesced) restDistinct restHeld
      refine ⟨next, blocks', ?_, lastInvariant, lastCoalesced, fun ptr => ?_⟩
      · rw [freeAll, List.foldlM_cons, performed]
        exact final
      · rw [liveIs, revoke_of_ne_zero nonzero]
        by_cases isFirst : ptr = first
        · simp [isFirst]
        · simp [isFirst]

/--
In every state of a run no two free blocks are neighbours, and freeing all
live pointers in any order leaves one free block of 1 MB.
-/
theorem reachable_joined
    {sys : Pmm.BuddySystem}
    (granted : HeapGranted sys)
    {mem : Memory}
    {run : HeapRun}
    (reached : HeapReachable sys mem run) :
    (∃ chain, TilesHeap (heapStart sys) run.heap chain ∧
      NoFreeNeighbours run.heap chain) ∧
    ∀ ptrs : List Nat, ptrs.Nodup →
      (∀ ptr, ptr ∈ ptrs ↔ run.live ptr ≠ none) →
      ∃ next, freeAll run ptrs = some next ∧
        OneFreeBlock (heapStart sys) next.heap := by
  obtain ⟨blocks, invariant, coalesced⟩ := reached.coalesced granted
  refine ⟨⟨_, invariant.tilesHeap, invariant.noFreeNeighbours coalesced⟩, ?_⟩
  intro ptrs distinct allLive
  obtain ⟨next, blocks', result, kept, joined, liveIs⟩ :=
    freeAll_returns invariant coalesced distinct
      fun ptr member => (allLive ptr).mp member
  refine ⟨next, result, kept.oneFreeBlock joined fun ptr => ?_⟩
  rw [liveIs]
  split
  · rfl
  · rename_i notListed
    by_contra isLive
    exact notListed ((allLive ptr).mpr isLive)

/-- One pointer is allocated and freed again. -/
theorem reachable_joined_boot :
    ∃ (run : HeapRun) (ptr : Nat), run.live ptr = some 100 ∧
      ∃ next, freeAll run [ptr] = some next ∧
        OneFreeBlock (heapStart bootSys) next.heap := by
  obtain ⟨run, performed, ptr, held, others⟩ :=
    first_kmalloc bootSys_granted fun _ => 0
  refine ⟨run, ptr, held, (reachable_joined bootSys_granted
    (.call (.kmalloc 100) .init trivial performed)).2 [ptr] (by simp) ?_⟩
  intro other
  rw [List.mem_singleton]
  constructor
  · rintro rfl
    simp [held]
  · intro isLive
    by_contra different
    exact isLive (others other different)

end MatrixOS.Kmalloc
