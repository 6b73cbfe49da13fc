import MatrixOS.IntrusiveList
import MatrixOS.PmmRegion

namespace MatrixOS.Pmm

open CircularLists Fuel

/-!
# The free lists in memory

The allocator keeps its free lists with `list.h`: the heads are in `buddy_sys`
and the nodes at the start of the free blocks.  With the lists in memory the
functions of `pmm.c` do what they do with sequences of addresses, also when
clients write whatever they like into the pages they hold.
-/

/-- `struct buddy_system` with the links of all its lists. -/
structure LinkedSystem where
  totalPages : Nat
  managedPages : Nat
  baseAddr : Nat
  nrFree : Nat → Nat
  links : ListMemory
  bitmap : Nat → UInt8

namespace LinkedSystem

-- where `free_area[order].free_list` is
variable (freeList : Nat → Nat)

/-- `list_add(&page->list, &area->free_list); area->nr_free++`. -/
def addFree (sys : LinkedSystem) (order addr : Nat) : LinkedSystem :=
  { sys with
    links := listAdd sys.links addr (freeList order)
    nrFree := Function.update sys.nrFree order
      (wrap32 (sys.nrFree order + 1)) }

/-- `list_del(&page->list); area->nr_free--`. -/
def delFree (sys : LinkedSystem) (order addr : Nat) : LinkedSystem :=
  { sys with
    links := listDel sys.links addr
    nrFree := Function.update sys.nrFree order (sub32 (sys.nrFree order) 1) }

/-- The loop of `pmm_init` over the orders. -/
def initLists (links : ListMemory) : (orders : Nat) → ListMemory
  | 0 => links
  | order + 1 => listInit (initLists links order) (freeList order)

/-- The `while` loop of `pmm_init`. -/
def pmmInitLoop :
    Nat → LinkedSystem → (remainingPages currentAddr : Nat) → LinkedSystem
  | 0, sys, _, _ => sys
  | fuel + 1, sys, remainingPages, currentAddr =>
      if remainingPages ≥ maxOrderPages then
        let firstIdx := sub32 currentAddr sys.baseAddr / pageSize
        let sys := sys.addFree freeList maxOrder currentAddr
        let sys := { sys with
          bitmap := setBits sys.bitmap firstIdx maxOrderPages }
        pmmInitLoop fuel sys (remainingPages - maxOrderPages)
          (wrap32 (currentAddr + maxOrderPages * pageSize))
      else
        sys

/-- `pmm_init`. -/
def pmmInit (prior : LinkedSystem) (memoryStart memoryEnd : Nat) :
    LinkedSystem :=
  let totalPages := sub32 memoryEnd memoryStart / pageSize
  let sys : LinkedSystem := {
    totalPages := totalPages
    managedPages := totalPages
    baseAddr := memoryStart
    nrFree := fun order => if order ≤ maxOrder then 0 else prior.nrFree order
    links := initLists freeList prior.links (maxOrder + 1)
    bitmap := fun index =>
      if index < bitmapSize totalPages then 0 else prior.bitmap index
  }
  let currentAddr := alignMaxBlock (wrap32 (memoryStart + bitmapSize totalPages))
  pmmInitLoop freeList totalPages sys totalPages currentAddr

/-- The search loop of `pmm_alloc_pages`. -/
def findFreeOrder (sys : LinkedSystem) : Nat → Nat → Nat
  | 0, currentOrder => currentOrder
  | fuel + 1, currentOrder =>
      if currentOrder ≤ maxOrder then
        if listEmpty sys.links (freeList currentOrder) then
          findFreeOrder sys fuel (currentOrder + 1)
        else
          currentOrder
      else
        currentOrder

/-- The split loop of `pmm_alloc_pages`, by its current order. -/
def splitLoop (pageAddr order : Nat) : Nat → LinkedSystem → LinkedSystem
  | 0, sys => sys
  | currentOrder + 1, sys =>
      if currentOrder + 1 > order then
        let buddyAddr := splitBuddyAddr pageAddr currentOrder
        let sys := sys.addFree freeList currentOrder buddyAddr
        let buddyIdx := sub32 buddyAddr sys.baseAddr / pageSize
        let sys := { sys with bitmap := setBit sys.bitmap buddyIdx }
        splitLoop pageAddr order currentOrder sys
      else
        sys

/-- `pmm_alloc_pages`: the address of a block, or 0. -/
def pmmAllocPages (sys : LinkedSystem) (order : Nat) : Nat × LinkedSystem :=
  if order > maxOrder then
    (0, sys)
  else
    let currentOrder := findFreeOrder freeList sys (maxOrder + 1 - order) order
    if currentOrder > maxOrder then
      (0, sys)
    else
      let pageAddr := sys.links.next (freeList currentOrder)
      let sys := sys.delFree currentOrder pageAddr
      let sys := splitLoop freeList pageAddr order currentOrder sys
      let pageIdx := sub32 pageAddr sys.baseAddr / pageSize
      (pageAddr,
        { sys with bitmap := setBits sys.bitmap pageIdx (1 <<< order) })

/-- The address `pmm_free_pages` takes for the buddy of the block at an index. -/
def mergeBuddyAddr (sys : LinkedSystem) (pageIdx order : Nat) : Nat :=
  wrap32 (sys.baseAddr + findBuddyPfn pageIdx order * pageSize)

/-- The `list_for_each` of `pmm_free_pages`, which breaks at the buddy. -/
def findBuddy (links : ListMemory) (head buddyAddr : Nat) :
    (fuel pos : Nat) → Option Bool
  | 0, _ => none
  | fuel + 1, pos =>
      if pos ≠ head then
        if pos = buddyAddr then some true
        else findBuddy links head buddyAddr fuel (links.next pos)
      else
        some false

/-- The merge loop and the final insertion of `pmm_free_pages`. -/
def mergeLoop (search : Nat) :
    Nat → LinkedSystem → (currentOrder pageIdx currentAddr : Nat) →
      Option LinkedSystem
  | 0, sys, currentOrder, _, currentAddr =>
      some (sys.addFree freeList currentOrder currentAddr)
  | fuel + 1, sys, currentOrder, pageIdx, currentAddr =>
      if currentOrder < maxOrder then do
        let buddyIdx := findBuddyPfn pageIdx currentOrder
        let buddyAddr := sys.mergeBuddyAddr pageIdx currentOrder
        let head := freeList currentOrder
        let found ← findBuddy sys.links head buddyAddr search (sys.links.next head)
        if found then
          let sys := sys.delFree currentOrder buddyAddr
          if currentAddr > buddyAddr then
            mergeLoop search fuel sys (currentOrder + 1) buddyIdx buddyAddr
          else
            mergeLoop search fuel sys (currentOrder + 1) pageIdx currentAddr
        else
          some (sys.addFree freeList currentOrder currentAddr)
      else
        some (sys.addFree freeList currentOrder currentAddr)

/-- `pmm_free_pages`; no result when the searches do not end. -/
def pmmFreePages (sys : LinkedSystem) (pageAddr order search : Nat) :
    Option LinkedSystem :=
  if order > maxOrder ∨ pageAddr < sys.baseAddr then
    some sys
  else
    let pageIdx := sub32 pageAddr sys.baseAddr / pageSize
    let sys := { sys with
      bitmap := clearBits sys.bitmap pageIdx (1 <<< order) }
    mergeLoop freeList search (maxOrder - order) sys order pageIdx pageAddr

end LinkedSystem

/-! ## The sequences behind the links -/

/-- The lists in memory are those of the allocator with sequences. -/
structure Implements (freeList : Nat → Nat) (linked : LinkedSystem)
    (sys : BuddySystem) : Prop where
  totalPages : linked.totalPages = sys.totalPages
  managedPages : linked.managedPages = sys.managedPages
  baseAddr : linked.baseAddr = sys.baseAddr
  bitmap : linked.bitmap = sys.bitmap
  nrFree : ∀ order ≤ maxOrder,
    linked.nrFree order = (sys.freeArea order).nrFree
  lists : SeparateLists linked.links freeList
    (fun order => (sys.freeArea order).freeList) {order | order ≤ maxOrder}

namespace BuddySystem

theorem freeLists_addFree (sys : BuddySystem) (order addr : Nat) :
    (fun other => ((sys.addFree order addr).freeArea other).freeList) =
      Function.update (fun other => (sys.freeArea other).freeList) order
        (addr :: (sys.freeArea order).freeList) := by
  funext other
  by_cases same : other = order
  · subst same
    simp [addFree]
  · simp [addFree, same]

theorem freeLists_delFree (sys : BuddySystem) (order addr : Nat) :
    (fun other => ((sys.delFree order addr).freeArea other).freeList) =
      Function.update (fun other => (sys.freeArea other).freeList) order
        ((sys.freeArea order).freeList.erase addr) := by
  funext other
  by_cases same : other = order
  · subst same
    simp [delFree]
  · simp [delFree, same]

end BuddySystem

namespace Invariant

variable {freeList : Nat → Nat} {sys : BuddySystem} {live : List PageBlock}
variable {pool : Set Nat}

/-- No head in front of the region and no free block is in an outstanding block. -/
theorem node_apart
    (invariant : Invariant sys live pool)
    (inFront : ∀ order ≤ maxOrder, freeList order < sys.baseAddr) :
    ∀ order ≤ maxOrder,
      ∀ node ∈ freeList order :: (sys.freeArea order).freeList,
        ∀ block ∈ live, node / pageSize ∉ block.pages := by
  intro order bound node member block held inBlock
  have inPool := invariant.tiles.extent_subset (List.mem_append_left _ held)
    inBlock
  rcases List.mem_cons.mp member with rfl | listed
  · have front := Nat.div_le_div_right (c := pageSize)
      (Nat.le_of_lt (inFront order bound))
    have range := (invariant.poolRange _ inPool).1
    omega
  · have apart := (List.pairwise_append.mp invariant.tiles.disjoint).2.2
      block held ⟨node, order⟩ (BuddySystem.mem_freeBlocks.mpr ⟨bound, listed⟩)
    exact Set.disjoint_left.mp apart inBlock PageBlock.first_mem_pages

/-- A block in hand is on no list and is not a head. -/
theorem addr_fresh
    {order addr : Nat}
    (invariant : Invariant sys (⟨addr, order⟩ :: live) pool)
    (inFront : ∀ order ≤ maxOrder, freeList order < sys.baseAddr) :
    ∀ other ≤ maxOrder,
      addr ∉ freeList other :: (sys.freeArea other).freeList := by
  intro other bound member
  exact invariant.node_apart inFront other bound addr member ⟨addr, order⟩
    (List.mem_cons_self ..) PageBlock.first_mem_pages

end Invariant

namespace Implements

variable {freeList : Nat → Nat} {linked : LinkedSystem} {sys : BuddySystem}
variable {order addr : Nat}

/-- The bitmaps may be written on both sides. -/
theorem withBitmap
    (implements : Implements freeList linked sys)
    {written alike : Nat → UInt8}
    (same : written = alike) :
    Implements freeList { linked with bitmap := written }
      { sys with bitmap := alike } :=
  { implements with bitmap := same }

theorem addFree
    (implements : Implements freeList linked sys)
    (bound : order ≤ maxOrder)
    (fresh : ∀ other ≤ maxOrder,
      addr ∉ freeList other :: (sys.freeArea other).freeList) :
    Implements freeList (linked.addFree freeList order addr)
      (sys.addFree order addr) where
  totalPages := implements.totalPages
  managedPages := implements.managedPages
  baseAddr := implements.baseAddr
  bitmap := implements.bitmap
  nrFree := by
    intro other otherBound
    by_cases same : other = order
    · subst same
      simp [LinkedSystem.addFree, BuddySystem.addFree,
        implements.nrFree other bound]
    · simp [LinkedSystem.addFree, BuddySystem.addFree, same,
        implements.nrFree other otherBound]
  lists := by
    rw [BuddySystem.freeLists_addFree]
    exact implements.lists.listAdd (Set.mem_ofPred_eq.mpr bound) fresh

theorem delFree
    (implements : Implements freeList linked sys)
    (bound : order ≤ maxOrder)
    (member : addr ∈ (sys.freeArea order).freeList) :
    Implements freeList (linked.delFree order addr)
      (sys.delFree order addr) where
  totalPages := implements.totalPages
  managedPages := implements.managedPages
  baseAddr := implements.baseAddr
  bitmap := implements.bitmap
  nrFree := by
    intro other otherBound
    by_cases same : other = order
    · subst same
      simp [LinkedSystem.delFree, BuddySystem.delFree,
        implements.nrFree other bound]
    · simp [LinkedSystem.delFree, BuddySystem.delFree, same,
        implements.nrFree other otherBound]
  lists := by
    rw [BuddySystem.freeLists_delFree]
    exact implements.lists.listDel (Set.mem_ofPred_eq.mpr bound) member

/-! ## Allocation -/

theorem findFreeOrder
    (implements : Implements freeList linked sys)
    (fuel order : Nat) :
    linked.findFreeOrder freeList fuel order =
      Pmm.findFreeOrder sys fuel order := by
  induction fuel generalizing order with
  | zero =>
      rfl
  | succ fuel inductionHypothesis =>
      rw [LinkedSystem.findFreeOrder, Pmm.findFreeOrder, inductionHypothesis]
      split
      · rename_i bound
        have empty := listEmpty_iff (implements.lists.lists order bound)
        rw [← List.isEmpty_iff] at empty
        rw [Bool.eq_iff_iff.mpr empty]
      · rfl

theorem splitLoop
    {live : List PageBlock} {pool : Set Nat}
    (currentOrder : Nat)
    (implements : Implements freeList linked sys)
    (inFront : ∀ order ≤ maxOrder, freeList order < sys.baseAddr)
    (invariant : Invariant sys (⟨addr, currentOrder⟩ :: live) pool)
    (empty :
      ∀ other, order ≤ other → other < currentOrder →
        (sys.freeArea other).freeList = []) :
    Implements freeList
      (LinkedSystem.splitLoop freeList addr order currentOrder linked)
      (Pmm.splitLoop addr order currentOrder sys) := by
  induction currentOrder generalizing linked sys with
  | zero =>
      exact implements
  | succ currentOrder inductionHypothesis =>
      rw [LinkedSystem.splitLoop, Pmm.splitLoop]
      split
      · rename_i larger
        have bound : currentOrder + 1 ≤ maxOrder :=
          invariant.orderLe ⟨addr, currentOrder + 1⟩ (List.mem_cons_self ..)
        have aligned : 2 ^ (currentOrder + 1) * pageSize ∣ addr :=
          invariant.aligned ⟨addr, currentOrder + 1⟩ (by simp)
        have halves := ((Invariant.cut_iff aligned bound).mp invariant).perm
          (List.Perm.swap ..)
        have listEmpty : (sys.freeArea currentOrder).freeList = [] :=
          empty currentOrder (by omega) (Nat.lt_succ_self _)
        have kept := halves.put fun _ => by simp [listEmpty]
        have added := implements.addFree (Nat.le_of_succ_le bound)
          (halves.addr_fresh inFront)
        refine inductionHypothesis
          (added.withBitmap (by rw [added.baseAddr, added.bitmap])) inFront
          (kept.withBitmap _) ?_
        intro other above below
        have different : other ≠ currentOrder := by omega
        simpa [BuddySystem.addFree, different] using
          empty other above (by omega)
      · exact implements

/-- `pmm_alloc_pages` returns the same address. -/
theorem pmmAllocPages
    {live : List PageBlock} {pool : Set Nat}
    (implements : Implements freeList linked sys)
    (inFront : ∀ order ≤ maxOrder, freeList order < sys.baseAddr)
    (invariant : Invariant sys live pool)
    (order : Nat) :
    (linked.pmmAllocPages freeList order).1 = (Pmm.pmmAllocPages sys order).1 ∧
      Implements freeList (linked.pmmAllocPages freeList order).2
        (Pmm.pmmAllocPages sys order).2 := by
  unfold LinkedSystem.pmmAllocPages Pmm.pmmAllocPages
  simp only [implements.findFreeOrder]
  by_cases tooLarge : order > maxOrder
  · simp only [tooLarge, ↓reduceIte]
    exact ⟨trivial, implements⟩
  obtain ⟨lower, _, skipped, found⟩ :=
    Invariant.findFreeOrder_spec sys (maxOrder + 1 - order) order (by omega)
  simp only [tooLarge, ↓reduceIte]
  generalize Pmm.findFreeOrder sys (maxOrder + 1 - order) order = chosen
    at lower skipped found ⊢
  by_cases exhausted : chosen > maxOrder
  · simp only [exhausted, ↓reduceIte]
    exact ⟨trivial, implements⟩
  simp only [exhausted, ↓reduceIte]
  have bound : chosen ≤ maxOrder := by omega
  cases shape : (sys.freeArea chosen).freeList with
  | nil =>
      exact absurd shape (found bound)
  | cons pageAddr rest =>
      have list := implements.lists.lists chosen bound
      rw [shape] at list
      have first : linked.links.next (freeList chosen) = pageAddr :=
        list.visits.1
      have member : pageAddr ∈ (sys.freeArea chosen).freeList := by
        rw [shape]
        exact List.mem_cons_self ..
      have stillEmpty :
          ∀ other, order ≤ other → other < chosen →
            ((sys.delFree chosen pageAddr).freeArea other).freeList = [] := by
        intro other above below
        have different : other ≠ chosen := Nat.ne_of_lt below
        simpa [BuddySystem.delFree, different] using skipped other above below
      have split := (implements.delFree bound member).splitLoop chosen inFront
        (invariant.take bound member) stillEmpty
      rw [first]
      exact ⟨rfl, split.withBitmap (by rw [split.baseAddr, split.bitmap])⟩

/-! ## Release -/

/-- The search ends and finds the buddy when it is on the list. -/
theorem findBuddy_returns
    {links : ListMemory} {head buddyAddr pos : Nat} {nodes : List Nat}
    (visits : Visits links head pos nodes)
    (apart : head ∉ nodes) :
    Returns (fun fuel => LinkedSystem.findBuddy links head buddyAddr fuel pos)
      (decide (buddyAddr ∈ nodes)) := by
  induction nodes generalizing pos with
  | nil =>
      obtain rfl : pos = head := visits
      refine returns_succ_iff.mp ?_
      simp only [LinkedSystem.findBuddy, ne_eq, not_true_eq_false, if_false]
      exact returns_some _
  | cons first rest inductionHypothesis =>
      obtain ⟨rfl, visitsRest⟩ := visits
      rw [List.mem_cons, not_or] at apart
      refine returns_succ_iff.mp ?_
      simp only [LinkedSystem.findBuddy, ne_eq, Ne.symm apart.1,
        not_false_eq_true, if_true]
      by_cases found : pos = buddyAddr
      · simp only [found, if_true, List.mem_cons_self, decide_true]
        exact returns_some _
      · simp only [found, if_false, List.mem_cons, Ne.symm found, false_or]
        exact inductionHypothesis visitsRest apart.2

theorem mergeLoop
    {live : List PageBlock} {pool : Set Nat}
    (fuel order addr : Nat)
    (implements : Implements freeList linked sys)
    (inFront : ∀ order ≤ maxOrder, freeList order < sys.baseAddr)
    (invariant : Invariant sys (⟨addr, order⟩ :: live) pool)
    (enough : order + fuel = maxOrder) :
    ∃ next,
      Returns (fun search => LinkedSystem.mergeLoop freeList search fuel linked
        order (sub32 addr sys.baseAddr / pageSize) addr) next ∧
      Implements freeList next
        (Pmm.mergeLoop fuel sys order (sub32 addr sys.baseAddr / pageSize)
          addr) := by
  induction fuel generalizing linked sys order addr with
  | zero =>
      exact ⟨_, returns_some _, implements.addFree (Nat.le_of_eq enough)
        (invariant.addr_fresh inFront)⟩
  | succ fuel inductionHypothesis =>
      have below : order < maxOrder := by omega
      have bounds := invariant.addr_bounds ⟨addr, order⟩ (by simp)
      obtain ⟨buddyAddr, buddyIdx⟩ :=
        mergeBuddyAddr_eq invariant.baseAligned below
          (invariant.aligned ⟨addr, order⟩ (by simp)) (Nat.le_of_lt bounds.1)
          bounds.2
      have sameBuddy : linked.mergeBuddyAddr
          (sub32 addr sys.baseAddr / pageSize) order =
            splitBuddyAddr addr order := by
        rw [LinkedSystem.mergeBuddyAddr, implements.baseAddr]
        exact buddyAddr
      have list := implements.lists.lists order (Nat.le_of_lt below)
      have searched : Returns
          (fun search => LinkedSystem.findBuddy linked.links (freeList order)
            (splitBuddyAddr addr order) search
            (linked.links.next (freeList order)))
          (decide (splitBuddyAddr addr order ∈ (sys.freeArea order).freeList)) :=
        findBuddy_returns list.visits list.apart
      rw [invariant.mergeLoop_round fuel below]
      simp only [LinkedSystem.mergeLoop, below, if_true, sameBuddy, buddyIdx]
      by_cases free :
          splitBuddyAddr addr order ∈ (sys.freeArea order).freeList
      · rw [decide_eq_true free] at searched
        rw [if_pos free]
        obtain ⟨next, returns, implementsNext⟩ := inductionHypothesis (order + 1)
          _ (implements.delFree (Nat.le_of_lt below) free) inFront
          (invariant.join below free) (by omega)
        refine ⟨next, searched.bind_iff.mpr ?_, implementsNext⟩
        simp only [if_true]
        convert returns using 2
        split <;> rfl
      · rw [decide_eq_false free] at searched
        rw [if_neg free]
        exact ⟨_, searched.bind_iff.mpr (returns_some _),
          implements.addFree (Nat.le_of_lt below) (invariant.addr_fresh inFront)⟩

/-- `pmm_free_pages` of an outstanding block ends with the same lists. -/
theorem pmmFreePages
    {live : List PageBlock} {pool : Set Nat}
    (implements : Implements freeList linked sys)
    (inFront : ∀ order ≤ maxOrder, freeList order < sys.baseAddr)
    (invariant : Invariant sys (⟨addr, order⟩ :: live) pool) :
    ∃ next,
      Returns (fun search => linked.pmmFreePages freeList addr order search)
        next ∧
      Implements freeList next (Pmm.pmmFreePages sys addr order) := by
  have bound : order ≤ maxOrder :=
    invariant.orderLe ⟨addr, order⟩ (List.mem_cons_self ..)
  have above : sys.baseAddr < addr :=
    (invariant.addr_bounds ⟨addr, order⟩ (by simp)).1
  have accepted : ¬ (order > maxOrder ∨ addr < sys.baseAddr) := by omega
  unfold LinkedSystem.pmmFreePages Pmm.pmmFreePages
  simp only [implements.baseAddr, implements.bitmap, accepted, if_false]
  generalize clearBits sys.bitmap (sub32 addr sys.baseAddr / pageSize)
    (1 <<< order) = cleared
  have kept : Implements freeList
      { linked with baseAddr := sys.baseAddr, bitmap := cleared }
      { sys with bitmap := cleared } :=
    { implements with baseAddr := rfl, bitmap := rfl }
  exact kept.mergeLoop (maxOrder - order) order addr inFront
    (invariant.withBitmap _) (by omega)

/-! ## Initialisation -/

theorem initLists_lists
    (distinct : ∀ order ≤ maxOrder, ∀ other ≤ maxOrder,
      freeList order = freeList other → order = other)
    (links : ListMemory)
    {orders : Nat}
    (bound : orders ≤ maxOrder + 1) :
    ∀ order < orders,
      CircularList (LinkedSystem.initLists freeList links orders)
        (freeList order) [] := by
  induction orders with
  | zero =>
      exact fun order below => absurd below (Nat.not_lt_zero order)
  | succ last inductionHypothesis =>
      intro order below
      rw [LinkedSystem.initLists]
      by_cases isLast : order = last
      · rw [isLast]
        exact listInit_circularList _ _
      · have different : freeList order ≠ freeList last := fun same =>
          isLast (distinct order (by omega) last (by omega) same)
        refine (inductionHypothesis (by omega) order (by omega)).congr ?_ ?_
        · simp [listInit, different]
        · simp [listInit, different]

/-- Each block is added behind all heads and nodes. -/
theorem pmmInitLoop
    (fuel remainingPages currentAddr : Nat)
    (implements : Implements freeList linked sys)
    (cursor : maxOrderPages ≤ remainingPages →
      (∀ order ≤ maxOrder,
        ∀ node ∈ freeList order :: (sys.freeArea order).freeList,
          node < currentAddr) ∧
      currentAddr + remainingPages / 2 ^ 11 * 2 ^ 23 ≤ 2 ^ 32) :
    Implements freeList
      (LinkedSystem.pmmInitLoop freeList fuel linked remainingPages currentAddr)
      (Pmm.pmmInitLoop fuel sys remainingPages currentAddr) := by
  induction fuel generalizing linked sys remainingPages currentAddr with
  | zero =>
      exact implements
  | succ fuel inductionHypothesis =>
      rw [LinkedSystem.pmmInitLoop, Pmm.pmmInitLoop]
      split
      · rename_i another
        obtain ⟨before, fits⟩ := cursor another
        have added := implements.addFree (Nat.le_refl maxOrder)
          fun other bound member =>
            Nat.lt_irrefl _ (before other bound currentAddr member)
        refine inductionHypothesis _ _
          (added.withBitmap (by rw [added.bitmap, implements.baseAddr])) ?_
        intro more
        have pages : maxOrderPages = 2 ^ 11 := Nat.one_shiftLeft maxOrder
        rw [maxBlockBytes, wrap32_of_lt (by omega)]
        refine ⟨fun order bound node member => ?_, by omega⟩
        simp only [BuddySystem.addFree] at member
        by_cases largest : order = maxOrder
        · subst largest
          rw [Function.update_self, List.mem_cons, List.mem_cons] at member
          rcases member with isHead | isNew | old
          · have front := before maxOrder bound node (by simp [isHead])
            omega
          · omega
          · have front := before maxOrder bound node (by simp [old])
            omega
        · rw [Function.update_of_ne largest] at member
          have front := before order bound node member
          omega
      · exact implements

end Implements

/-- The heads are at different places in front of the region. -/
structure HeadsInFront (freeList : Nat → Nat) (memoryStart : Nat) : Prop where
  distinct : ∀ order ≤ maxOrder, ∀ other ≤ maxOrder,
    freeList order = freeList other → order = other
  inFront : ∀ order ≤ maxOrder, freeList order < memoryStart

theorem pmmInit_implements
    {freeList : Nat → Nat} {memoryStart memoryEnd : Nat}
    (heads : HeadsInFront freeList memoryStart)
    (aligned : 2 ^ 23 ∣ memoryStart)
    (ordered : memoryStart < memoryEnd)
    (inRange : memoryEnd < 2 ^ 32)
    (linked : LinkedSystem)
    {prior : BuddySystem}
    (sameBitmap : linked.bitmap = prior.bitmap) :
    Implements freeList (linked.pmmInit freeList memoryStart memoryEnd)
      (pmmInit prior memoryStart memoryEnd) := by
  have lists := Implements.initLists_lists heads.distinct linked.links
    (Nat.le_refl (maxOrder + 1))
  unfold LinkedSystem.pmmInit pmmInit
  simp only [sub32_of_le inRange (Nat.le_of_lt ordered)]
  generalize total : (memoryEnd - memoryStart) / pageSize = totalPages
  simp only [pageSize] at total
  refine Implements.pmmInitLoop _ _ _ ?_ ?_
  · exact {
      totalPages := rfl
      managedPages := rfl
      baseAddr := rfl
      bitmap := by rw [sameBitmap]
      nrFree := by
        intro order bound
        simp [bound]
      lists := {
        lists := by
          rintro order (bound : order ≤ maxOrder)
          simpa [bound] using lists order (Nat.lt_succ_of_le bound)
        separate := by
          rintro order (bound : order ≤ maxOrder) other
            (otherBound : other ≤ maxOrder) different
          have apart : freeList order ≠ freeList other := fun same =>
            different (heads.distinct order bound other otherBound same)
          simpa [bound, otherBound] using apart.symm
      }
    }
  · intro enough
    obtain ⟨cursor, fits⟩ := pmmInit_cursor aligned (by omega) enough
    rw [cursor]
    refine ⟨fun order bound node member => ?_, fits⟩
    have front := heads.inFront order bound
    simp only [bound, if_true, List.mem_singleton] at member
    omega

/-! ## Runs -/

/-- An allocator with its lists in memory, and the blocks its clients hold. -/
structure LinkedRun where
  sys : LinkedSystem
  live : List PageBlock

/-- A call, or writes of clients into the pages they hold. -/
inductive LinkedStep (freeList : Nat → Nat) : LinkedRun → LinkedRun → Prop where
  | alloc (run : LinkedRun) (order : Nat) :
      LinkedStep freeList run {
        sys := (run.sys.pmmAllocPages freeList order).2
        live :=
          if (run.sys.pmmAllocPages freeList order).1 = 0 then run.live
          else ⟨(run.sys.pmmAllocPages freeList order).1, order⟩ :: run.live }
  | free (run : LinkedRun) (block : PageBlock) (held : block ∈ run.live)
      (next : LinkedSystem)
      (returns :
        Returns
          (fun search =>
            run.sys.pmmFreePages freeList block.addr block.order search)
          next) :
      LinkedStep freeList run { sys := next, live := run.live.erase block }
  | write (run : LinkedRun) (written : ListMemory)
      (inside : ∀ node, (∀ block ∈ run.live, node / pageSize ∉ block.pages) →
        written.next node = run.sys.links.next node ∧
          written.prev node = run.sys.links.prev node) :
      LinkedStep freeList run {
        sys := { run.sys with links := written }
        live := run.live }

/-- Writes into outstanding blocks leave the lists alone. -/
theorem Implements.write
    {freeList : Nat → Nat} {linked : LinkedSystem} {sys : BuddySystem}
    {live : List PageBlock} {pool : Set Nat} {written : ListMemory}
    (implements : Implements freeList linked sys)
    (inFront : ∀ order ≤ maxOrder, freeList order < sys.baseAddr)
    (invariant : Invariant sys live pool)
    (inside : ∀ node, (∀ block ∈ live, node / pageSize ∉ block.pages) →
      written.next node = linked.links.next node ∧
        written.prev node = linked.links.prev node) :
    Implements freeList { linked with links := written } sys :=
  { implements with
    lists := {
      lists := fun order bound =>
        (implements.lists.lists order bound).congr
          (fun node member =>
            (inside node (invariant.node_apart inFront order bound node member)).1)
          (fun node member =>
            (inside node (invariant.node_apart inFront order bound node member)).2)
      separate := implements.lists.separate } }

/--
Whatever clients write into their pages, a run with the lists in memory is a
run with the lists as sequences.
-/
theorem linkedRun_refines
    {freeList : Nat → Nat} {memoryStart memoryEnd : Nat}
    (heads : HeadsInFront freeList memoryStart)
    (aligned : 2 ^ 23 ∣ memoryStart)
    (ordered : memoryStart < memoryEnd)
    (inRange : memoryEnd < 2 ^ 32)
    {linked : LinkedSystem} {prior : BuddySystem}
    (sameBitmap : linked.bitmap = prior.bitmap)
    {run : LinkedRun}
    (reached : Relation.ReflTransGen (LinkedStep freeList)
      ⟨linked.pmmInit freeList memoryStart memoryEnd, []⟩ run) :
    ∃ sys, Reachable prior memoryStart memoryEnd ⟨sys, run.live⟩ ∧
      Implements freeList run.sys sys := by
  induction reached with
  | refl =>
      exact ⟨_, Relation.ReflTransGen.refl,
        pmmInit_implements heads aligned ordered inRange linked sameBitmap⟩
  | tail _ step inductionHypothesis =>
      obtain ⟨sys, reachable, implements⟩ := inductionHypothesis
      have invariant := reachable.invariant aligned ordered inRange
      have inFront : ∀ order ≤ maxOrder, freeList order < sys.baseAddr := by
        rw [reachable.baseAddr]
        exact heads.inFront
      cases step with
      | alloc order =>
          obtain ⟨sameAddr, after⟩ :=
            implements.pmmAllocPages inFront invariant order
          refine ⟨_, reachable.tail ?_, after⟩
          rw [sameAddr]
          exact PmmStep.alloc _ order
      | free block held next returns =>
          obtain ⟨after, alsoReturns, implementsAfter⟩ :=
            implements.pmmFreePages inFront
              (invariant.perm (List.perm_cons_erase held))
          rw [returns.unique alsoReturns]
          exact ⟨_, reachable.tail (PmmStep.free _ block held), implementsAfter⟩
      | write written inside =>
          exact ⟨sys, reachable, implements.write inFront invariant inside⟩

end MatrixOS.Pmm
