import MatrixOS.LockedProgress
import MatrixOS.PmmLocked

namespace MatrixOS.Pmm

open CircularLists

/-!
# The page allocator under its lock goes on

Every loop of `pmm_alloc_pages` and `pmm_free_pages` comes to its end under the
lock, also the walk through a free list that threads through memory while
clients write into the pages they hold.  So no processor keeps the lock.
-/

section Number

variable {freeList : Nat → Nat} {memoryStart : Nat} {live : List PageBlock}
variable {pool : Set Nat} {whole : PmmResult × BuddySystem}
variable {linked : LinkedSystem} {sys other : BuddySystem} {place : PmmPlace}

/-- The sequences behind the links are determined by the links. -/
theorem Implements.freeList_eq
    (implements : Implements freeList linked sys)
    (alsoImplements : Implements freeList linked other)
    {order : Nat}
    (bound : order ≤ maxOrder) :
    (sys.freeArea order).freeList = (other.freeArea order).freeList :=
  (implements.lists.lists order bound).unique
    (alsoImplements.lists.lists order bound)

theorem Implements.walksFrom_eq
    (implements : Implements freeList linked sys)
    (alsoImplements : Implements freeList linked other)
    (order : Nat) :
    walksFrom sys order = walksFrom other order := by
  rw [walksFrom, walksFrom]
  refine congrArg List.sum (List.map_congr_left fun later member => ?_)
  have bounds := List.mem_range'_1.mp member
  rw [implements.freeList_eq alsoImplements (by omega)]

open Classical in
/-- The statements that are left, told by the memory alone. -/
noncomputable def PmmPlace.left
    (freeList : Nat → Nat) (place : PmmPlace) (linked : LinkedSystem) : Nat :=
  if behind : ∃ sys, Implements freeList linked sys then
    place.remaining behind.choose
  else
    0

/-- It is the number of the sequences behind the memory. -/
theorem Midway.left_eq
    (midway : Midway freeList memoryStart live pool whole place linked sys) :
    place.left freeList linked = place.remaining sys := by
  have behind : ∃ sys, Implements freeList linked sys :=
    ⟨sys, midway.implements⟩
  rw [PmmPlace.left, dif_pos behind]
  have chosen := behind.choose_spec
  have walks := chosen.walksFrom_eq midway.implements
  cases place with
  | searching order currentOrder => rfl
  | taking order currentOrder => rfl
  | splitting order currentOrder pageAddr => rfl
  | marking order pageAddr i => rfl
  | clearing order pageAddr i => simp only [PmmPlace.remaining, walks]
  | merging currentOrder pageIdx currentAddr =>
      simp only [PmmPlace.remaining, walks]
  | walking currentOrder pageIdx currentAddr pos =>
      obtain ⟨_, below, _⟩ := midway.right
      simp only [PmmPlace.remaining, walks,
        chosen.freeList_eq midway.implements (Nat.le_of_lt below)]

end Number

section Progress

variable {freeList : Nat → Nat} {prior : BuddySystem}
variable {memoryStart memoryEnd : Nat}
variable {Cpu : Type} [DecidableEq Cpu]

/-- Every statement under the lock has fewer behind it. -/
noncomputable def lockedPmmProgress
    (heads : HeadsInFront freeList memoryStart)
    (aligned : 2 ^ 23 ∣ memoryStart)
    (ordered : memoryStart < memoryEnd)
    (inRange : memoryEnd < 2 ^ 32) :
    LockProgress (lockedPmmProof prior heads aligned ordered inRange :
      LockProof (lockedPmm freeList Cpu)) where
  left := PmmPlace.left freeList
  statement := by
    rintro clients linked cpu call place after next
      ⟨run, trace, accounts, waits, sys, midway⟩ done
    have advances := midway.statement heads.inFront
    rw [show place.statement freeList linked = _ from done] at advances
    obtain ⟨later, goesOn, fewer⟩ := advances
    rw [midway.left_eq, goesOn.left_eq]
    exact fewer
  disturbed := by
    rintro clients linked cpu call place after
      ⟨run, trace, accounts, waits, sys, midway⟩ ⟨written, rfl, inside⟩
    have disturbed := midway.disturb heads.inFront fun node apart =>
      inside node fun block owned =>
        apart block (call.owned_subset accounts waits owned)
    rw [midway.left_eq, disturbed.left_eq]

end Progress

/-- Two processors that take turns after one of them has called. -/
def turns : Nat → LockedState Spinlock LinkedSystem (PmmClients Bool) Bool
    PmmCall PmmPlace PmmResult
  | 0 => lockedBoot
  | 1 => lockedBoot.move false (.spinning (PmmCall.alloc 0))
  | moment + 2 =>
      (turns (moment + 1)).tick spinlock (lockedPmm bootFreeList Bool)
        (moment % 2 == 1)

theorem turns_run : LockedRun spinlock (lockedPmm bootFreeList Bool) turns := by
  intro moment
  cases moment with
  | zero => exact .call lockedBoot false (PmmCall.alloc 0) rfl trivial rfl
  | succ moment => exact .tick _ _

theorem turns_fair : Fair spinlock (lockedPmm bootFreeList Bool) turns := by
  intro thread moment
  cases thread with
  | false =>
      refine ⟨2 * moment + 1, by omega, ?_⟩
      rw [turns, show (2 * moment % 2 == 1) = false by
        simp]
  | true =>
      refine ⟨2 * moment + 2, by omega, ?_⟩
      rw [turns, show ((2 * moment + 1) % 2 == 1) = true by
        simp]

end MatrixOS.Pmm
