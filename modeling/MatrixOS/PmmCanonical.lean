import MatrixOS.PmmRegion

namespace MatrixOS.Pmm

open Tiling

/-!
# The order of releases

The free blocks are determined by the free pages, since no two of them are
buddies.  So the releases of a set of blocks lead to the same free lists in
every order, up to the order of the entries.
-/

/-- Releasing blocks one after the other. -/
def freeAll (sys : BuddySystem) (blocks : List PageBlock) : BuddySystem :=
  blocks.foldl (fun sys block => pmmFreePages sys block.addr block.order) sys

/-- The free lists hold the same blocks. -/
def SameFreeLists (left right : BuddySystem) : Prop :=
  ∀ order ≤ maxOrder,
    (left.freeArea order).freeList.Perm (right.freeArea order).freeList

section Canonical

variable {sys other : BuddySystem} {live : List PageBlock} {pool : Set Nat}

namespace Invariant

theorem freeBlocks_tiles
    (invariant : Invariant sys live pool) :
    Tiles DyadicBlock.extent (sys.freeBlocks.map PageBlock.toDyadic)
      sys.freePages := by
  have apart := (List.pairwise_append.mp invariant.tiles.disjoint).2.1
  exact (Tiles.of_pairwise apart).map PageBlock.toDyadic fun block member =>
    (PageBlock.pages_eq_extent
      (invariant.aligned block (List.mem_append_right _ member))).symm

/-- Every list holds an address once. -/
theorem freeList_nodup
    (invariant : Invariant sys live pool)
    {order : Nat}
    (bound : order ≤ maxOrder) :
    (sys.freeArea order).freeList.Nodup := by
  have apart := (List.pairwise_append.mp invariant.tiles.disjoint).2.1
  have nodup : sys.freeBlocks.Nodup :=
    (Tiles.of_pairwise apart).nodup fun block _ =>
      ⟨_, PageBlock.first_mem_pages⟩
  rw [BuddySystem.freeBlocks, List.nodup_flatMap] at nodup
  exact (nodup.1 order (List.mem_range.mpr (Nat.lt_succ_of_le bound))).of_map _

/-- Two allocators with the same outstanding blocks have the same free blocks. -/
theorem mem_freeList_of_same
    (invariant : Invariant sys live pool)
    (otherInvariant : Invariant other live pool)
    {order addr : Nat}
    (bound : order ≤ maxOrder)
    (listed : addr ∈ (sys.freeArea order).freeList) :
    addr ∈ (other.freeArea order).freeList := by
  have isFree : (⟨addr, order⟩ : PageBlock) ∈ sys.freeBlocks :=
    BuddySystem.mem_freeBlocks.mpr ⟨bound, listed⟩
  have samePages : ∀ page, page ∈ sys.freePages ↔ page ∈ other.freePages := by
    intro page
    rw [invariant.mem_freePages_iff, otherInvariant.mem_freePages_iff]
  have tiles := invariant.freeBlocks_tiles
  have otherTiles := otherInvariant.freeBlocks_tiles
  have bounded : ∀ {system : BuddySystem},
      ∀ member ∈ system.freeBlocks.map PageBlock.toDyadic,
        member.order ≤ maxOrder := by
    intro system member isMember
    obtain ⟨block, blockFree, rfl⟩ := List.mem_map.mp isMember
    exact (BuddySystem.mem_freeBlocks.mp blockFree).1
  have found := DyadicBlock.mem_of_same_cover invariant.no_dyadic_buddies
    otherInvariant.no_dyadic_buddies bounded bounded
    (fun left leftMember right rightMember number inLeft inRight =>
      tiles.eq_of_mem leftMember rightMember inLeft inRight)
    (fun number => ((tiles.covered number).symm.trans
      (samePages number)).trans (otherTiles.covered number))
    (List.mem_map_of_mem isFree)
  obtain ⟨block, blockFree, sameDyadic⟩ := List.mem_map.mp found
  have blockAligned := otherInvariant.aligned block
    (List.mem_append_right _ blockFree)
  have aligned := invariant.aligned _ (List.mem_append_right _ isFree)
  have sameAddr : block.addr = addr := by
    rw [PageBlock.addr_eq_of_aligned blockAligned, sameDyadic]
    exact (PageBlock.addr_eq_of_aligned aligned).symm
  have sameOrder : block.order = order :=
    congrArg DyadicBlock.order sameDyadic
  have blockListed := (BuddySystem.mem_freeBlocks.mp blockFree).2
  rwa [sameAddr, sameOrder] at blockListed

theorem sameFreeLists
    (invariant : Invariant sys live pool)
    (otherInvariant : Invariant other live pool) :
    SameFreeLists sys other := by
  intro order bound
  rw [List.perm_ext_iff_of_nodup (invariant.freeList_nodup bound)
    (otherInvariant.freeList_nodup bound)]
  exact fun addr => ⟨invariant.mem_freeList_of_same otherInvariant bound,
    otherInvariant.mem_freeList_of_same invariant bound⟩

/-- Releasing outstanding blocks keeps the invariant. -/
theorem freeAll
    {blocks : List PageBlock}
    (invariant : Invariant sys (blocks ++ live) pool) :
    Invariant (freeAll sys blocks) live pool := by
  induction blocks generalizing sys with
  | nil =>
      exact invariant
  | cons block blocks inductionHypothesis =>
      exact inductionHypothesis invariant.pmmFreePages

end Invariant

end Canonical

/--
Two orders of releasing the same outstanding blocks lead to the same free
lists.  When all outstanding blocks are released these are the lists that
`pmm_init` made, with blocks of the largest order only.
-/
theorem frees_commute
    (prior : BuddySystem)
    {memoryStart memoryEnd : Nat}
    (aligned : 2 ^ 23 ∣ memoryStart)
    (ordered : memoryStart < memoryEnd)
    (inRange : memoryEnd < 2 ^ 32)
    {run : PmmRun}
    (reached : Reachable prior memoryStart memoryEnd run) :
    (∀ first second : List PageBlock, first.Nodup → first ⊆ run.live →
      first.Perm second →
        SameFreeLists (freeAll run.sys first) (freeAll run.sys second)) ∧
      ∀ all : List PageBlock, all.Perm run.live →
        SameFreeLists (freeAll run.sys all)
          (pmmInit prior memoryStart memoryEnd) ∧
        ∀ order < maxOrder,
          ((freeAll run.sys all).freeArea order).freeList = [] := by
  have invariant := reached.invariant aligned ordered inRange
  constructor
  · intro first second distinct held same
    obtain ⟨sublist, isFirst, inLive⟩ := List.subperm_of_subset distinct held
    obtain ⟨rest, split⟩ := inLive.exists_perm_append
    have isRest : run.live.Perm (first ++ rest) :=
      split.trans (isFirst.append_right rest)
    have firstDone := (invariant.perm isRest).freeAll
    have secondDone :=
      (invariant.perm (isRest.trans (same.append_right rest))).freeAll
    exact firstDone.sameFreeLists secondDone
  · intro all same
    have done : Invariant (freeAll run.sys all) []
        (pmmInit prior memoryStart memoryEnd).freePages := by
      apply Invariant.freeAll
      rw [List.append_nil]
      exact invariant.perm same.symm
    have initial := pmmInit_invariant prior aligned ordered inRange
    have sameLists := done.sameFreeLists initial
    refine ⟨sameLists, fun order below => ?_⟩
    have startAligned : pageSize ∣ memoryStart :=
      pageSize_dvd_maxBlock.trans aligned
    refine List.eq_nil_iff_forall_not_mem.mpr fun addr listed => ?_
    have bound := Nat.le_of_lt below
    have inInit : (⟨addr, order⟩ : PageBlock) ∈
        (pmmInit prior memoryStart memoryEnd).freeBlocks :=
      BuddySystem.mem_freeBlocks.mpr
        ⟨bound, (sameLists order bound).mem_iff.mp listed⟩
    have largest :=
      ((mem_pmmInit prior startAligned ordered inRange _).mp inInit).1
    exact absurd largest (Nat.ne_of_lt below)

theorem frees_commute_boot :
    SameFreeLists (freeAll bootRun.sys bootRun.live)
      (pmmInit bss 0x01000000 0x02000000) :=
  ((frees_commute bss (by norm_num) (by norm_num) (by norm_num)
    bootRun_reachable).2 bootRun.live (List.Perm.refl _)).1

end MatrixOS.Pmm
