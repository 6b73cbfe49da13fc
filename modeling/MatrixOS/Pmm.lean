import Mathlib.Logic.Function.Basic
import MatrixOS.DyadicBlocks
import MatrixOS.Tiling
import MatrixOS.Word

namespace MatrixOS.Pmm

/-!
# The physical page allocator

`kernel/mm/pmm.c` is a binary buddy system.  It keeps one free list and one
counter for every order, and a bitmap that starts at the beginning of the
managed region.

A free list is the sequence of the addresses of its blocks, head first, so
`list_add` puts an address in front and `list_del` removes one.  The bitmap is
indexed by byte.  The spin lock is taken and released once on every path of
every function here and is left out.
-/

/-- `MAX_ORDER`: the largest block has `2 ^ 11` pages. -/
def maxOrder : Nat := 11

/-- Pages in a block of the largest order. -/
def maxOrderPages : Nat := 1 <<< maxOrder

/-- `struct free_area`. -/
structure FreeArea where
  freeList : List Nat
  nrFree : Nat
  deriving Repr, DecidableEq

/-- `struct buddy_system`. -/
structure BuddySystem where
  totalPages : Nat
  managedPages : Nat
  baseAddr : Nat
  freeArea : Nat → FreeArea
  bitmap : Nat → UInt8

namespace BuddySystem

/-- `list_add(&page->list, &area->free_list); area->nr_free++`. -/
def addFree (sys : BuddySystem) (order addr : Nat) : BuddySystem :=
  { sys with
    freeArea := Function.update sys.freeArea order {
      freeList := addr :: (sys.freeArea order).freeList
      nrFree := wrap32 ((sys.freeArea order).nrFree + 1)
    } }

/-- `list_del(&page->list); area->nr_free--`. -/
def delFree (sys : BuddySystem) (order addr : Nat) : BuddySystem :=
  { sys with
    freeArea := Function.update sys.freeArea order {
      freeList := (sys.freeArea order).freeList.erase addr
      nrFree := sub32 (sys.freeArea order).nrFree 1
    } }

end BuddySystem

/-! ## The bitmap -/

/-- `bitmap[index / 8] |= 1 << (index % 8)`. -/
def setBit (bitmap : Nat → UInt8) (index : Nat) : Nat → UInt8 :=
  Function.update bitmap (index / 8)
    (bitmap (index / 8) ||| (1 <<< UInt8.ofNat (index % 8)))

/-- `bitmap[index / 8] &= ~(1 << (index % 8))`. -/
def clearBit (bitmap : Nat → UInt8) (index : Nat) : Nat → UInt8 :=
  Function.update bitmap (index / 8)
    (bitmap (index / 8) &&& ~~~(1 <<< UInt8.ofNat (index % 8)))

/-- Set the bits `first, …, first + count - 1` in this order. -/
def setBits (bitmap : Nat → UInt8) (first count : Nat) : Nat → UInt8 :=
  (List.range count).foldl
    (fun current offset => setBit current (first + offset)) bitmap

/-- Clear the bits `first, …, first + count - 1` in this order. -/
def clearBits (bitmap : Nat → UInt8) (first count : Nat) : Nat → UInt8 :=
  (List.range count).foldl
    (fun current offset => clearBit current (first + offset)) bitmap

/-! ## Initialisation -/

/--
The `while (remaining_pages >= max_order_pages)` loop of `pmm_init`.  The
first argument bounds the number of iterations.
-/
def pmmInitLoop :
    Nat → BuddySystem → (remainingPages currentAddr : Nat) → BuddySystem
  | 0, sys, _, _ => sys
  | fuel + 1, sys, remainingPages, currentAddr =>
      if remainingPages ≥ maxOrderPages then
        let firstIdx := sub32 currentAddr sys.baseAddr / pageSize
        let sys := sys.addFree maxOrder currentAddr
        let sys := { sys with
          bitmap := setBits sys.bitmap firstIdx maxOrderPages }
        pmmInitLoop fuel sys (remainingPages - maxOrderPages)
          (wrap32 (currentAddr + maxOrderPages * pageSize))
      else
        sys

/-- Bytes of bitmap for `totalPages` pages. -/
def bitmapSize (totalPages : Nat) : Nat :=
  (totalPages + 7) / 8

/-- Round an address up to the next boundary of the largest block. -/
def alignMaxBlock (addr : Nat) : Nat :=
  wrap32 (addr + (maxOrderPages * pageSize - 1)) &&&
    not32 (maxOrderPages * pageSize - 1)

/--
`pmm_init`.  `prior` is the memory the structure and its bitmap are laid over;
only its bitmap bytes past `bitmap_size` can survive.
-/
def pmmInit (prior : BuddySystem) (memoryStart memoryEnd : Nat) :
    BuddySystem :=
  let totalPages := sub32 memoryEnd memoryStart / pageSize
  let sys : BuddySystem := {
    totalPages := totalPages
    managedPages := totalPages
    baseAddr := memoryStart
    freeArea := fun order =>
      if order ≤ maxOrder then ⟨[], 0⟩ else prior.freeArea order
    bitmap := fun index =>
      if index < bitmapSize totalPages then 0 else prior.bitmap index
  }
  let currentAddr := alignMaxBlock (wrap32 (memoryStart + bitmapSize totalPages))
  pmmInitLoop totalPages sys totalPages currentAddr

/-! ## Allocation -/

/--
The search loop of `pmm_alloc_pages`: the first order from `currentOrder` on
whose free list is not empty, or `maxOrder + 1`.
-/
def findFreeOrder (sys : BuddySystem) : Nat → Nat → Nat
  | 0, currentOrder => currentOrder
  | fuel + 1, currentOrder =>
      if currentOrder ≤ maxOrder then
        if (sys.freeArea currentOrder).freeList.isEmpty then
          findFreeOrder sys fuel (currentOrder + 1)
        else
          currentOrder
      else
        currentOrder

/-- The address `pmm_alloc_pages` takes for the buddy of a block. -/
def splitBuddyAddr (pageAddr order : Nat) : Nat :=
  pageAddr ^^^ (1 <<< (order + 12))

/-- The split loop `while (current_order > order)`, by its current order. -/
def splitLoop (pageAddr order : Nat) : Nat → BuddySystem → BuddySystem
  | 0, sys => sys
  | currentOrder + 1, sys =>
      if currentOrder + 1 > order then
        let buddyAddr := splitBuddyAddr pageAddr currentOrder
        let sys := sys.addFree currentOrder buddyAddr
        let buddyIdx := sub32 buddyAddr sys.baseAddr / pageSize
        let sys := { sys with bitmap := setBit sys.bitmap buddyIdx }
        splitLoop pageAddr order currentOrder sys
      else
        sys

/-- `pmm_alloc_pages`: the address of a block, or 0. -/
def pmmAllocPages (sys : BuddySystem) (order : Nat) : Nat × BuddySystem :=
  if order > maxOrder then
    (0, sys)
  else
    let currentOrder := findFreeOrder sys (maxOrder + 1 - order) order
    if currentOrder > maxOrder then
      (0, sys)
    else
      match (sys.freeArea currentOrder).freeList with
      | [] => (0, sys) -- not reached: the search stopped at a nonempty list
      | pageAddr :: _ =>
          let sys := sys.delFree currentOrder pageAddr
          let sys := splitLoop pageAddr order currentOrder sys
          let pageIdx := sub32 pageAddr sys.baseAddr / pageSize
          (pageAddr,
            { sys with bitmap := setBits sys.bitmap pageIdx (1 <<< order) })

/-! ## Release -/

/-- `find_buddy_pfn`. -/
def findBuddyPfn (pageIdx order : Nat) : Nat :=
  pageIdx ^^^ (1 <<< order)

/-- The address `pmm_free_pages` takes for the buddy of the block at an index. -/
def mergeBuddyAddr (sys : BuddySystem) (pageIdx order : Nat) : Nat :=
  wrap32 (sys.baseAddr + findBuddyPfn pageIdx order * pageSize)

/--
The merge loop `while (current_order < MAX_ORDER)` and the final insertion of
`pmm_free_pages`.  The first argument bounds the number of iterations.
-/
def mergeLoop :
    Nat → BuddySystem → (currentOrder pageIdx currentAddr : Nat) → BuddySystem
  | 0, sys, currentOrder, _, currentAddr =>
      sys.addFree currentOrder currentAddr
  | fuel + 1, sys, currentOrder, pageIdx, currentAddr =>
      if currentOrder < maxOrder then
        let buddyIdx := findBuddyPfn pageIdx currentOrder
        let buddyAddr := mergeBuddyAddr sys pageIdx currentOrder
        if buddyAddr ∈ (sys.freeArea currentOrder).freeList then
          let sys := sys.delFree currentOrder buddyAddr
          if currentAddr > buddyAddr then
            mergeLoop fuel sys (currentOrder + 1) buddyIdx buddyAddr
          else
            mergeLoop fuel sys (currentOrder + 1) pageIdx currentAddr
        else
          sys.addFree currentOrder currentAddr
      else
        sys.addFree currentOrder currentAddr

/-- `pmm_free_pages`. -/
def pmmFreePages (sys : BuddySystem) (pageAddr order : Nat) : BuddySystem :=
  if order > maxOrder ∨ pageAddr < sys.baseAddr then
    sys
  else
    let pageIdx := sub32 pageAddr sys.baseAddr / pageSize
    let sys := { sys with
      bitmap := clearBits sys.bitmap pageIdx (1 <<< order) }
    mergeLoop (maxOrder - order) sys order pageIdx pageAddr

/-! ## Statistics -/

/-- The numbers `pmm_stats` prints. -/
structure PmmStats where
  totalPages : Nat
  managedPages : Nat
  freeBlocks : List Nat
  usedPages : Nat
  freePages : Nat
  usage : Option Nat
  deriving Repr, DecidableEq

/-- The sum `nr_free * (1 << i)` over all orders, in 32 bits. -/
def totalFreePages (sys : BuddySystem) : Nat :=
  (List.range (maxOrder + 1)).foldl
    (fun total order =>
      wrap32 (total + wrap32 ((sys.freeArea order).nrFree * 1 <<< order))) 0

/-- `pmm_stats`.  The percentage divides by `managed_pages` and traps at 0. -/
def pmmStats (sys : BuddySystem) : PmmStats :=
  let usedPages := sub32 sys.managedPages (totalFreePages sys)
  { totalPages := sys.totalPages
    managedPages := sys.managedPages
    freeBlocks :=
      (List.range (maxOrder + 1)).map fun order => (sys.freeArea order).nrFree
    usedPages := usedPages
    freePages := totalFreePages sys
    usage :=
      if sys.managedPages = 0 then none
      else some (wrap32 (usedPages * 100) / sys.managedPages) }

/-! ## Blocks -/

/-- A block of `2 ^ order` pages at a physical address. -/
structure PageBlock where
  addr : Nat
  order : Nat
  deriving Repr, DecidableEq

namespace PageBlock

/-- The page frame numbers a block covers. -/
def pages (block : PageBlock) : Set Nat :=
  {page | block.addr / pageSize ≤ page ∧
    page < block.addr / pageSize + 2 ^ block.order}

/-- The block starts at a multiple of its own length. -/
def Aligned (block : PageBlock) : Prop :=
  2 ^ block.order * pageSize ∣ block.addr

/-- The number of pages of a block. -/
def size (block : PageBlock) : Nat :=
  2 ^ block.order

end PageBlock

namespace BuddySystem

/-- The blocks on the free lists. -/
def freeBlocks (sys : BuddySystem) : List PageBlock :=
  (List.range (maxOrder + 1)).flatMap fun order =>
    (sys.freeArea order).freeList.map fun addr => ⟨addr, order⟩

/-- The pages covered by the blocks on the free lists. -/
def freePages (sys : BuddySystem) : Set Nat :=
  {page | ∃ block ∈ sys.freeBlocks, page ∈ block.pages}

end BuddySystem

end MatrixOS.Pmm
