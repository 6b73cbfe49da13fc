import MatrixOS.LockedCalls
import MatrixOS.PmmLists

namespace MatrixOS

/-!
# The page allocator on several processors

`kernel/mm/spinlock.h` and the functions of `pmm.c` that take the lock of
`buddy_sys`, statement by statement, with the free lists in memory.
Processors call them at any time and clients write into the pages they hold
at any time.
-/

/-! ## The spin lock -/

/-- `spinlock_t`. -/
structure Spinlock where
  lock : Nat

def spinlockInit : Spinlock := ⟨0⟩

/-- `__sync_lock_test_and_set`: the value before, and the lock behind it. -/
def syncLockTestAndSet (value : Nat) (lock : Spinlock) : Nat × Spinlock :=
  (lock.lock, { lock with lock := value })

/-- A round of the loop of `spinlock_acquire`, and whether it is the last. -/
def spinlockAcquireRound (lock : Spinlock) : Bool × Spinlock :=
  let (old, lock) := syncLockTestAndSet 1 lock
  (old = 0, lock)

def spinlockRelease (lock : Spinlock) : Spinlock :=
  { lock with lock := 0 }

/-- The word of the lock tells whether it is held. -/
def spinlock : AttemptLock Spinlock where
  initial := spinlockInit
  attempt := spinlockAcquireRound
  release := spinlockRelease
  Held lock := lock.lock ≠ 0
  initial_free := fun held => held rfl
  attempt_iff := fun _ => decide_eq_true_iff.trans not_not.symm
  held_attempt := fun _ => Nat.one_ne_zero
  free_release := fun _ held => held rfl

namespace Pmm

open CircularLists

/-! ## The code under the lock -/

inductive PmmCall where
  | alloc (order : Nat)
  | free (block : PageBlock)
  deriving DecidableEq

/-- What a call returns. -/
inductive PmmResult where
  | address (addr : Nat)
  | released
  deriving DecidableEq

/-- A call that nothing interrupts. -/
def PmmCall.perform : PmmCall → BuddySystem → PmmResult × BuddySystem
  | .alloc order, sys =>
      (.address (pmmAllocPages sys order).1, (pmmAllocPages sys order).2)
  | .free block, sys => (.released, pmmFreePages sys block.addr block.order)

/-- Where a processor is between taking and releasing the lock. -/
inductive PmmPlace where
  /-- At the search loop of `pmm_alloc_pages`. -/
  | searching (order currentOrder : Nat)
  /-- Behind the search loop. -/
  | taking (order currentOrder : Nat)
  /-- At the split loop. -/
  | splitting (order currentOrder pageAddr : Nat)
  /-- At the loop that sets the bits of the pages. -/
  | marking (order pageAddr i : Nat)
  /-- At the loop of `pmm_free_pages` that clears the bits of the pages. -/
  | clearing (order pageAddr i : Nat)
  /-- At the merge loop. -/
  | merging (currentOrder pageIdx currentAddr : Nat)
  /-- At `list_for_each` in the merge loop. -/
  | walking (currentOrder pageIdx currentAddr pos : Nat)

/-- The checks in front of `spinlock_acquire`. -/
def PmmCall.refuse : PmmCall → LinkedSystem → Option PmmResult
  | .alloc order, _ => if order > maxOrder then some (.address 0) else none
  | .free block, sys =>
      if block.order > maxOrder ∨ block.addr < sys.baseAddr then some .released
      else none

/-- The first place behind `spinlock_acquire`. -/
def PmmCall.enter : PmmCall → PmmPlace
  | .alloc order => .searching order order
  | .free block => .clearing block.order block.addr 0

/-- The next statement under the lock. -/
def PmmPlace.statement (freeList : Nat → Nat) (place : PmmPlace)
    (sys : LinkedSystem) : LinkedSystem × (PmmPlace ⊕ PmmResult) :=
  match place with
  | .searching order currentOrder =>
      if currentOrder ≤ maxOrder then
        if listEmpty sys.links (freeList currentOrder) then
          (sys, .inl (.searching order (currentOrder + 1)))
        else
          (sys, .inl (.taking order currentOrder))
      else
        (sys, .inr (.address 0))
  | .taking order currentOrder =>
      let entry := sys.links.next (freeList currentOrder)
      (sys.delFree currentOrder entry,
        .inl (.splitting order currentOrder entry))
  | .splitting order currentOrder pageAddr =>
      if currentOrder > order then
        let currentOrder := currentOrder - 1
        let buddyAddr := splitBuddyAddr pageAddr currentOrder
        let sys := sys.addFree freeList currentOrder buddyAddr
        let buddyIdx := sub32 buddyAddr sys.baseAddr / pageSize
        ({ sys with bitmap := setBit sys.bitmap buddyIdx },
          .inl (.splitting order currentOrder pageAddr))
      else
        (sys, .inl (.marking order pageAddr 0))
  | .marking order pageAddr i =>
      if i < 1 <<< order then
        let pageIdx := sub32 pageAddr sys.baseAddr / pageSize
        ({ sys with bitmap := setBit sys.bitmap (pageIdx + i) },
          .inl (.marking order pageAddr (i + 1)))
      else
        (sys, .inr (.address pageAddr))
  | .clearing order pageAddr i =>
      let pageIdx := sub32 pageAddr sys.baseAddr / pageSize
      if i < 1 <<< order then
        ({ sys with bitmap := clearBit sys.bitmap (pageIdx + i) },
          .inl (.clearing order pageAddr (i + 1)))
      else
        (sys, .inl (.merging order pageIdx pageAddr))
  | .merging currentOrder pageIdx currentAddr =>
      if currentOrder < maxOrder then
        (sys, .inl (.walking currentOrder pageIdx currentAddr
          (sys.links.next (freeList currentOrder))))
      else
        (sys.addFree freeList currentOrder currentAddr, .inr .released)
  | .walking currentOrder pageIdx currentAddr pos =>
      let buddyIdx := findBuddyPfn pageIdx currentOrder
      let buddyAddr := sys.mergeBuddyAddr pageIdx currentOrder
      if pos ≠ freeList currentOrder then
        if pos = buddyAddr then
          let sys := sys.delFree currentOrder buddyAddr
          if currentAddr > buddyAddr then
            (sys, .inl (.merging (currentOrder + 1) buddyIdx buddyAddr))
          else
            (sys, .inl (.merging (currentOrder + 1) pageIdx currentAddr))
        else
          (sys, .inl (.walking currentOrder pageIdx currentAddr
            (sys.links.next pos)))
      else
        (sys.addFree freeList currentOrder currentAddr, .inr .released)

/-! ## The clients -/

/-- The blocks the clients hold, those being released, and the results. -/
structure PmmClients (Cpu : Type) where
  owned : List PageBlock
  freeing : List (Cpu × PageBlock)
  history : List (PmmCall × PmmResult)

namespace PmmClients

variable {Cpu : Type} [DecidableEq Cpu]

def none : PmmClients Cpu := ⟨[], [], []⟩

/-- A block whose release is called is not held any more. -/
def called (clients : PmmClients Cpu) (cpu : Cpu) : PmmCall → PmmClients Cpu
  | .alloc _ => clients
  | .free block =>
      { clients with
        owned := clients.owned.erase block
        freeing := (cpu, block) :: clients.freeing }

/-- A block is held from the return of its allocation on. -/
def returned (clients : PmmClients Cpu) (cpu : Cpu) (call : PmmCall)
    (result : PmmResult) : PmmClients Cpu :=
  let history := clients.history ++ [(call, result)]
  match call, result with
  | .alloc order, .address addr =>
      if addr = 0 then
        { clients with history := history }
      else
        { clients with
          owned := ⟨addr, order⟩ :: clients.owned
          history := history }
  | .alloc _, .released => { clients with history := history }
  | .free block, _ =>
      { clients with
        freeing := clients.freeing.erase (cpu, block)
        history := history }

end PmmClients

/-- Blocks are only released by those who hold them, and only those write. -/
def lockedPmm (freeList : Nat → Nat) (Cpu : Type) [DecidableEq Cpu] :
    LockedCode LinkedSystem (PmmClients Cpu) Cpu PmmCall PmmPlace PmmResult where
  refuse := PmmCall.refuse
  enter := PmmCall.enter
  statement := PmmPlace.statement freeList
  Allowed clients _ call :=
    match call with
    | .alloc _ => True
    | .free block => block ∈ clients.owned
  called := PmmClients.called
  returned := PmmClients.returned
  Disturbs clients sys after :=
    ∃ written : ListMemory, after = { sys with links := written } ∧
      ∀ node, (∀ block ∈ clients.owned, node / pageSize ∉ block.pages) →
        written.next node = sys.links.next node ∧
          written.prev node = sys.links.prev node

/-- The allocator and the outstanding blocks behind a call. -/
def PmmCall.after (call : PmmCall) (run : PmmRun) : PmmRun where
  sys := (call.perform run.sys).2
  live :=
    match call with
    | .alloc order =>
        if (pmmAllocPages run.sys order).1 = 0 then run.live
        else ⟨(pmmAllocPages run.sys order).1, order⟩ :: run.live
    | .free block => run.live.erase block

/-- Calls that nothing interrupts, one after the other, with their results. -/
inductive PmmTrace (prior : BuddySystem) (memoryStart memoryEnd : Nat) :
    List (PmmCall × PmmResult) → PmmRun → Prop where
  | init :
      PmmTrace prior memoryStart memoryEnd []
        ⟨pmmInit prior memoryStart memoryEnd, []⟩
  | call {history : List (PmmCall × PmmResult)} {run : PmmRun}
      (call : PmmCall) (held : ∀ block, call = .free block → block ∈ run.live) :
      PmmTrace prior memoryStart memoryEnd history run →
        PmmTrace prior memoryStart memoryEnd
          (history ++ [(call, (call.perform run.sys).1)]) (call.after run)

theorem PmmCall.step
    (call : PmmCall)
    {run : PmmRun}
    (held : ∀ block, call = .free block → block ∈ run.live) :
    PmmStep run (call.after run) := by
  cases call with
  | alloc order => exact PmmStep.alloc run order
  | free block => exact PmmStep.free run block (held block rfl)

theorem PmmTrace.reachable
    {prior : BuddySystem} {memoryStart memoryEnd : Nat}
    {history : List (PmmCall × PmmResult)} {run : PmmRun}
    (trace : PmmTrace prior memoryStart memoryEnd history run) :
    Reachable prior memoryStart memoryEnd run := by
  induction trace with
  | init => exact Relation.ReflTransGen.refl
  | call call held _ inductionHypothesis =>
      exact inductionHypothesis.tail (call.step held)

/-! ## What is left of a call -/

/-- `change` is made for the pages from the `i`-th on. -/
def changeBits (change : (Nat → UInt8) → Nat → Nat → UInt8)
    (bitmap : Nat → UInt8) (first i count : Nat) : Nat → UInt8 :=
  (List.range' i (count - i)).foldl
    (fun current offset => change current (first + offset)) bitmap

theorem changeBits_of_lt
    {change : (Nat → UInt8) → Nat → Nat → UInt8}
    {bitmap : Nat → UInt8} {first i count : Nat}
    (inside : i < count) :
    changeBits change bitmap first i count =
      changeBits change (change bitmap (first + i)) first (i + 1) count := by
  have length : count - i = count - (i + 1) + 1 := by omega
  rw [changeBits, length, List.range'_succ, List.foldl_cons]
  rfl

theorem changeBits_of_le
    {change : (Nat → UInt8) → Nat → Nat → UInt8}
    {bitmap : Nat → UInt8} {first i count : Nat}
    (behind : count ≤ i) :
    changeBits change bitmap first i count = bitmap := by
  rw [changeBits, Nat.sub_eq_zero_of_le behind]
  rfl

/-- The end of `pmm_alloc_pages`. -/
def markFrom (order pageAddr i : Nat) (sys : BuddySystem) :
    PmmResult × BuddySystem :=
  (.address pageAddr, { sys with
    bitmap := changeBits setBit sys.bitmap
      (sub32 pageAddr sys.baseAddr / pageSize) i (1 <<< order) })

/-- `pmm_alloc_pages` from the end of its search on. -/
def takeAt (order currentOrder : Nat) (sys : BuddySystem) :
    PmmResult × BuddySystem :=
  if currentOrder > maxOrder then
    (.address 0, sys)
  else
    match (sys.freeArea currentOrder).freeList with
    | [] => (.address 0, sys)
    | pageAddr :: _ =>
        markFrom order pageAddr 0
          (splitLoop pageAddr order currentOrder
            (sys.delFree currentOrder pageAddr))

/-- What is left of a call, when nothing interrupts it. -/
def PmmPlace.finish : PmmPlace → BuddySystem → PmmResult × BuddySystem
  | searching order currentOrder, sys =>
      takeAt order
        (findFreeOrder sys (maxOrder + 1 - currentOrder) currentOrder) sys
  | taking order currentOrder, sys => takeAt order currentOrder sys
  | splitting order currentOrder pageAddr, sys =>
      markFrom order pageAddr 0 (splitLoop pageAddr order currentOrder sys)
  | marking order pageAddr i, sys => markFrom order pageAddr i sys
  | clearing order pageAddr i, sys =>
      let pageIdx := sub32 pageAddr sys.baseAddr / pageSize
      (.released, mergeLoop (maxOrder - order)
        { sys with
          bitmap := changeBits clearBit sys.bitmap pageIdx i (1 <<< order) }
        order pageIdx pageAddr)
  | merging currentOrder pageIdx currentAddr, sys =>
      (.released,
        mergeLoop (maxOrder - currentOrder) sys currentOrder pageIdx currentAddr)
  | walking currentOrder pageIdx currentAddr _, sys =>
      (.released,
        mergeLoop (maxOrder - currentOrder) sys currentOrder pageIdx currentAddr)

/-- The whole call is left when the lock is taken. -/
theorem PmmCall.finish_enter
    {call : PmmCall} {linked : LinkedSystem} {sys : BuddySystem}
    (sameBase : linked.baseAddr = sys.baseAddr)
    (accepted : call.refuse linked = none) :
    call.enter.finish sys = call.perform sys := by
  cases call with
  | alloc order =>
      simp only [refuse, ite_eq_right_iff, reduceCtorEq, imp_false] at accepted
      simp only [enter, PmmPlace.finish, perform, pmmAllocPages, accepted,
        if_false, takeAt]
      split
      · rfl
      · split <;> simp_all [markFrom, changeBits, setBits, List.range_eq_range']
  | free block =>
      simp only [refuse, ite_eq_right_iff, reduceCtorEq, imp_false, sameBase]
        at accepted
      simp only [enter, PmmPlace.finish, perform, pmmFreePages, accepted,
        if_false, changeBits, clearBits, List.range_eq_range', Nat.sub_zero]

/-- The blocks that are on no list while a call is at a place. -/
def PmmPlace.hand : PmmPlace → List PageBlock
  | searching _ _ => []
  | taking _ _ => []
  | splitting _ currentOrder pageAddr => [⟨pageAddr, currentOrder⟩]
  | marking order pageAddr _ => [⟨pageAddr, order⟩]
  | clearing order pageAddr _ => [⟨pageAddr, order⟩]
  | merging currentOrder _ currentAddr => [⟨currentAddr, currentOrder⟩]
  | walking currentOrder _ currentAddr _ => [⟨currentAddr, currentOrder⟩]

/-- The lists from `order` on and below another order are empty. -/
def Skipped (sys : BuddySystem) (order currentOrder : Nat) : Prop :=
  ∀ other, order ≤ other → other < currentOrder →
    (sys.freeArea other).freeList = []

/-- What the loops have done so far. -/
def PmmPlace.Right (freeList : Nat → Nat) (sys : BuddySystem) : PmmPlace → Prop
  | searching order currentOrder =>
      order ≤ currentOrder ∧ currentOrder ≤ maxOrder + 1 ∧
        Skipped sys order currentOrder
  | taking order currentOrder =>
      order ≤ currentOrder ∧ currentOrder ≤ maxOrder ∧
        Skipped sys order currentOrder ∧
        (sys.freeArea currentOrder).freeList ≠ []
  | splitting order currentOrder _ =>
      order ≤ currentOrder ∧ Skipped sys order currentOrder
  | marking _ _ _ => True
  | clearing _ _ _ => True
  | merging _ pageIdx currentAddr =>
      pageIdx = sub32 currentAddr sys.baseAddr / pageSize
  | walking currentOrder pageIdx currentAddr pos =>
      pageIdx = sub32 currentAddr sys.baseAddr / pageSize ∧
        currentOrder < maxOrder ∧
        ∃ passed rest,
          (sys.freeArea currentOrder).freeList = passed ++ rest ∧
          splitBuddyAddr currentAddr currentOrder ∉ passed ∧
          pos = rest.headD (freeList currentOrder)

/-- Where the pages are while a processor is at a place of a call. -/
structure Midway
    (freeList : Nat → Nat) (memoryStart : Nat) (live : List PageBlock)
    (pool : Set Nat) (whole : PmmResult × BuddySystem) (place : PmmPlace)
    (linked : LinkedSystem) (sys : BuddySystem) : Prop where
  implements : Implements freeList linked sys
  invariant : Invariant sys (place.hand ++ live) pool
  baseAddr : sys.baseAddr = memoryStart
  right : place.Right freeList sys
  rest : place.finish sys = whole

/-- The rounds of the merge loop from an order on, with their walks. -/
def walksFrom (sys : BuddySystem) (order : Nat) : Nat :=
  ((List.range' order (maxOrder - order)).map fun other =>
    (sys.freeArea other).freeList.length + 2).sum

theorem walksFrom_of_lt
    (sys : BuddySystem)
    {order : Nat}
    (below : order < maxOrder) :
    walksFrom sys order =
      (sys.freeArea order).freeList.length + 2 + walksFrom sys (order + 1) := by
  have rounds : maxOrder - order = maxOrder - (order + 1) + 1 := by omega
  rw [walksFrom, rounds, List.range'_succ, List.map_cons, List.sum_cons,
    walksFrom]

theorem walksFrom_congr
    {sys after : BuddySystem} {order : Nat}
    (same : ∀ other ≥ order,
      (after.freeArea other).freeList = (sys.freeArea other).freeList) :
    walksFrom after order = walksFrom sys order := by
  rw [walksFrom, walksFrom]
  refine congrArg List.sum (List.map_congr_left fun other member => ?_)
  rw [same other (List.mem_range'_1.mp member).1]

/-- The statements that are left at a place, at most. -/
def PmmPlace.remaining (sys : BuddySystem) : PmmPlace → Nat
  | searching order currentOrder =>
      (maxOrder + 1 - currentOrder) + (maxOrder - order) + 1 <<< order + 4
  | taking order currentOrder => (currentOrder - order) + 1 <<< order + 3
  | splitting order currentOrder _ => (currentOrder - order) + 1 <<< order + 2
  | marking order _ i => (1 <<< order - i) + 1
  | clearing order _ i => (1 <<< order - i) + walksFrom sys order + 2
  | merging currentOrder _ _ => walksFrom sys currentOrder + 1
  | walking currentOrder _ _ pos =>
      ((sys.freeArea currentOrder).freeList.length -
        (sys.freeArea currentOrder).freeList.idxOf pos) +
        walksFrom sys (currentOrder + 1) + 2

/-- A statement leads to another place of the same call or to its result. -/
def Advances
    (freeList : Nat → Nat) (memoryStart : Nat) (live : List PageBlock)
    (pool : Set Nat) (whole : PmmResult × BuddySystem) (left : Nat) :
    LinkedSystem × (PmmPlace ⊕ PmmResult) → Prop
  | (linked, .inl place) =>
      ∃ sys, Midway freeList memoryStart live pool whole place linked sys ∧
        place.remaining sys < left
  | (linked, .inr result) =>
      ∃ sys, Implements freeList linked sys ∧ sys.baseAddr = memoryStart ∧
        whole = (result, sys)

namespace Midway

variable {freeList : Nat → Nat} {memoryStart : Nat} {live : List PageBlock}
variable {pool : Set Nat} {whole : PmmResult × BuddySystem}
variable {linked : LinkedSystem} {sys : BuddySystem}
variable {order currentOrder pageAddr pageIdx i pos : Nat}

theorem searching
    (midway : Midway freeList memoryStart live pool whole
      (.searching order currentOrder) linked sys) :
    Advances freeList memoryStart live pool whole
      (PmmPlace.remaining sys (.searching order currentOrder))
      (PmmPlace.statement freeList (.searching order currentOrder) linked) := by
  obtain ⟨implements, invariant, baseAddr, ⟨above, upper, skipped⟩, rest⟩ :=
    midway
  simp only [PmmPlace.statement]
  by_cases bound : currentOrder ≤ maxOrder
  · have fuel : maxOrder + 1 - currentOrder =
        maxOrder + 1 - (currentOrder + 1) + 1 := by omega
    simp only [PmmPlace.finish, fuel, findFreeOrder, bound, if_true] at rest
    have empty := listEmpty_iff (implements.lists.lists currentOrder bound)
    simp only [bound, if_true, empty]
    by_cases isEmpty : (sys.freeArea currentOrder).freeList = []
    · rw [if_pos isEmpty]
      rw [if_pos (List.isEmpty_iff.mpr isEmpty)] at rest
      refine ⟨sys, ⟨implements, invariant, baseAddr,
        ⟨by omega, by omega, fun other lower below => ?_⟩, rest⟩,
        by simp only [PmmPlace.remaining]; omega⟩
      rcases Nat.lt_succ_iff_lt_or_eq.mp below with below | rfl
      · exact skipped other lower below
      · exact isEmpty
    · rw [if_neg isEmpty]
      rw [if_neg (by simpa using isEmpty)] at rest
      exact ⟨sys, ⟨implements, invariant, baseAddr,
        ⟨above, bound, skipped, isEmpty⟩, rest⟩,
        by simp only [PmmPlace.remaining]; omega⟩
  · have last : maxOrder + 1 - currentOrder = 0 := by omega
    simp only [PmmPlace.finish, last, findFreeOrder, takeAt,
      Nat.lt_of_not_le bound, if_true] at rest
    rw [if_neg bound]
    exact ⟨sys, implements, baseAddr, rest.symm⟩

theorem taking
    (midway : Midway freeList memoryStart live pool whole
      (.taking order currentOrder) linked sys) :
    Advances freeList memoryStart live pool whole
      (PmmPlace.remaining sys (.taking order currentOrder))
      (PmmPlace.statement freeList (.taking order currentOrder) linked) := by
  obtain ⟨implements, invariant, baseAddr, ⟨above, bound, skipped, notEmpty⟩,
    rest⟩ := midway
  have list := implements.lists.lists currentOrder bound
  cases shape : (sys.freeArea currentOrder).freeList with
  | nil =>
      exact absurd shape notEmpty
  | cons pageAddr others =>
      rw [shape] at list
      have first : linked.links.next (freeList currentOrder) = pageAddr :=
        list.visits.1
      have member : pageAddr ∈ (sys.freeArea currentOrder).freeList := by
        rw [shape]
        exact List.mem_cons_self ..
      simp only [PmmPlace.finish, takeAt, Nat.not_lt.mpr bound, if_false,
        shape] at rest
      simp only [PmmPlace.statement, first]
      refine ⟨sys.delFree currentOrder pageAddr,
        ⟨implements.delFree bound member, invariant.take bound member, baseAddr,
          ⟨above, fun other lower below => ?_⟩, rest⟩,
        by simp only [PmmPlace.remaining]; omega⟩
      have different : other ≠ currentOrder := Nat.ne_of_lt below
      simpa [BuddySystem.delFree, different] using skipped other lower below

theorem splitting
    (midway : Midway freeList memoryStart live pool whole
      (.splitting order currentOrder pageAddr) linked sys)
    (inFront : ∀ order ≤ maxOrder, freeList order < memoryStart) :
    Advances freeList memoryStart live pool whole
      (PmmPlace.remaining sys (.splitting order currentOrder pageAddr))
      (PmmPlace.statement freeList (.splitting order currentOrder pageAddr)
        linked) := by
  obtain ⟨implements, invariant, baseAddr, ⟨above, skipped⟩, rest⟩ := midway
  simp only [PmmPlace.statement, PmmPlace.finish] at rest ⊢
  cases currentOrder with
  | zero =>
      obtain rfl := Nat.le_zero.mp above
      exact ⟨sys, ⟨implements, invariant, baseAddr, trivial, rest⟩,
        by simp only [PmmPlace.remaining]; omega⟩
  | succ currentOrder =>
      rw [splitLoop] at rest
      by_cases larger : currentOrder + 1 > order
      · have bound : currentOrder + 1 ≤ maxOrder :=
          invariant.orderLe ⟨pageAddr, currentOrder + 1⟩
            (List.mem_cons_self ..)
        have aligned : 2 ^ (currentOrder + 1) * pageSize ∣ pageAddr :=
          invariant.aligned ⟨pageAddr, currentOrder + 1⟩
            (List.mem_append_left _ (List.mem_cons_self ..))
        have halves := ((Invariant.cut_iff aligned bound).mp invariant).perm
          (List.Perm.swap ..)
        have listEmpty : (sys.freeArea currentOrder).freeList = [] :=
          skipped currentOrder (by omega) (Nat.lt_succ_self _)
        have kept := halves.put fun _ => by simp [listEmpty]
        have added := implements.addFree (Nat.le_of_succ_le bound)
          (halves.addr_fresh (baseAddr.symm ▸ inFront))
        rw [if_pos larger] at rest
        rw [if_pos larger]
        simp only [Nat.add_sub_cancel]
        refine ⟨_, ⟨added.withBitmap (by rw [added.baseAddr, added.bitmap]),
          kept.withBitmap _, baseAddr, ⟨by omega, fun other lower below => ?_⟩,
          rest⟩, by simp only [PmmPlace.remaining]; omega⟩
        have different : other ≠ currentOrder := by omega
        simpa [BuddySystem.addFree, different] using
          skipped other lower (by omega)
      · obtain rfl : order = currentOrder + 1 := by omega
        rw [if_neg larger] at rest
        rw [if_neg larger]
        refine ⟨sys, ⟨implements, invariant, baseAddr, trivial, rest⟩, ?_⟩
        simp only [PmmPlace.remaining, Nat.sub_self, Nat.sub_zero, Nat.zero_add]
        exact Nat.lt_succ_self _

theorem marking
    (midway : Midway freeList memoryStart live pool whole
      (.marking order pageAddr i) linked sys) :
    Advances freeList memoryStart live pool whole
      (PmmPlace.remaining sys (.marking order pageAddr i))
      (PmmPlace.statement freeList (.marking order pageAddr i) linked) := by
  obtain ⟨implements, invariant, baseAddr, _, rest⟩ := midway
  simp only [PmmPlace.statement, PmmPlace.finish, markFrom] at rest ⊢
  by_cases inside : i < 1 <<< order
  · rw [if_pos inside]
    rw [changeBits_of_lt inside] at rest
    have same : setBit linked.bitmap
        (sub32 pageAddr linked.baseAddr / pageSize + i) =
          setBit sys.bitmap (sub32 pageAddr sys.baseAddr / pageSize + i) := by
      rw [implements.baseAddr, implements.bitmap]
    exact ⟨_, ⟨implements.withBitmap same, invariant.withBitmap _, baseAddr,
      trivial, rest⟩, by simp only [PmmPlace.remaining]; omega⟩
  · rw [if_neg inside]
    rw [changeBits_of_le (Nat.le_of_not_lt inside)] at rest
    exact ⟨sys, implements, baseAddr, rest.symm⟩

theorem clearing
    (midway : Midway freeList memoryStart live pool whole
      (.clearing order pageAddr i) linked sys) :
    Advances freeList memoryStart live pool whole
      (PmmPlace.remaining sys (.clearing order pageAddr i))
      (PmmPlace.statement freeList (.clearing order pageAddr i) linked) := by
  obtain ⟨implements, invariant, baseAddr, _, rest⟩ := midway
  simp only [PmmPlace.statement, PmmPlace.finish] at rest ⊢
  by_cases inside : i < 1 <<< order
  · rw [if_pos inside]
    rw [changeBits_of_lt inside] at rest
    have same : clearBit linked.bitmap
        (sub32 pageAddr linked.baseAddr / pageSize + i) =
          clearBit sys.bitmap (sub32 pageAddr sys.baseAddr / pageSize + i) := by
      rw [implements.baseAddr, implements.bitmap]
    exact ⟨_, ⟨implements.withBitmap same, invariant.withBitmap _, baseAddr,
      trivial, rest⟩, by simp only [PmmPlace.remaining, walksFrom]; omega⟩
  · rw [if_neg inside, implements.baseAddr]
    rw [changeBits_of_le (Nat.le_of_not_lt inside)] at rest
    exact ⟨sys, ⟨implements, invariant, baseAddr, rfl, rest⟩,
      by simp only [PmmPlace.remaining]; omega⟩

theorem merging
    {currentAddr : Nat}
    (midway : Midway freeList memoryStart live pool whole
      (.merging currentOrder pageIdx currentAddr) linked sys)
    (inFront : ∀ order ≤ maxOrder, freeList order < memoryStart) :
    Advances freeList memoryStart live pool whole
      (PmmPlace.remaining sys (.merging currentOrder pageIdx currentAddr))
      (PmmPlace.statement freeList (.merging currentOrder pageIdx currentAddr)
        linked) := by
  obtain ⟨implements, invariant, baseAddr, right, rest⟩ := midway
  simp only [PmmPlace.statement, PmmPlace.finish] at rest ⊢
  have bound : currentOrder ≤ maxOrder :=
    invariant.orderLe ⟨currentAddr, currentOrder⟩ (List.mem_cons_self ..)
  by_cases below : currentOrder < maxOrder
  · rw [if_pos below]
    have list := implements.lists.lists currentOrder bound
    exact ⟨sys, ⟨implements, invariant, baseAddr, ⟨right, below, [],
      (sys.freeArea currentOrder).freeList, rfl, List.not_mem_nil,
      list.visits.first⟩, rest⟩,
      by simp only [PmmPlace.remaining, walksFrom_of_lt sys below]; omega⟩
  · rw [if_neg below]
    obtain rfl : currentOrder = maxOrder := by omega
    rw [Nat.sub_self, mergeLoop] at rest
    exact ⟨_, implements.addFree bound
      (invariant.addr_fresh (baseAddr.symm ▸ inFront)), baseAddr, rest.symm⟩

theorem walking
    {currentAddr : Nat}
    (midway : Midway freeList memoryStart live pool whole
      (.walking currentOrder pageIdx currentAddr pos) linked sys)
    (inFront : ∀ order ≤ maxOrder, freeList order < memoryStart) :
    Advances freeList memoryStart live pool whole
      (PmmPlace.remaining sys (.walking currentOrder pageIdx currentAddr pos))
      (PmmPlace.statement freeList
        (.walking currentOrder pageIdx currentAddr pos) linked) := by
  obtain ⟨implements, invariant, baseAddr,
    ⟨rfl, below, passed, rest, listed, notPassed, here⟩, finishes⟩ := midway
  have bounds := invariant.addr_bounds ⟨currentAddr, currentOrder⟩
    (List.mem_append_left _ (List.mem_cons_self ..))
  obtain ⟨buddyAddr, buddyIdx⟩ :=
    mergeBuddyAddr_eq invariant.baseAligned below
      (invariant.aligned ⟨currentAddr, currentOrder⟩
        (List.mem_append_left _ (List.mem_cons_self ..)))
      (Nat.le_of_lt bounds.1) bounds.2
  have sameBuddy : linked.mergeBuddyAddr
      (sub32 currentAddr sys.baseAddr / pageSize) currentOrder =
        splitBuddyAddr currentAddr currentOrder := by
    rw [LinkedSystem.mergeBuddyAddr, implements.baseAddr]
    exact buddyAddr
  have list := implements.lists.lists currentOrder (Nat.le_of_lt below)
  rw [listed] at list
  have fuel : maxOrder - currentOrder = maxOrder - (currentOrder + 1) + 1 := by
    omega
  simp only [PmmPlace.finish, fuel, invariant.mergeLoop_round _ below] at finishes
  simp only [PmmPlace.statement, sameBuddy, buddyIdx]
  cases rest with
  | nil =>
      -- the walk is back at the head: the buddy is not free
      rw [List.append_nil] at listed
      rw [if_neg (listed ▸ notPassed)] at finishes
      have back : pos = freeList currentOrder := here
      rw [if_neg (not_not.mpr back)]
      exact ⟨_, implements.addFree (Nat.le_of_lt below)
        (invariant.addr_fresh (baseAddr.symm ▸ inFront)), baseAddr,
        finishes.symm⟩
  | cons node others =>
      obtain rfl : pos = node := here
      have apart : pos ≠ freeList currentOrder := by
        rintro rfl
        exact list.apart (by simp)
      rw [if_pos apart]
      by_cases found : pos = splitBuddyAddr currentAddr currentOrder
      · have free : splitBuddyAddr currentAddr currentOrder ∈
            (sys.freeArea currentOrder).freeList := by
          rw [listed, ← found]
          simp
        have deleted := implements.delFree (Nat.le_of_lt below) free
        have joined := invariant.join below free
        have fewer (idx addr : Nat) :
            (PmmPlace.merging (currentOrder + 1) idx addr).remaining
                (sys.delFree currentOrder
                  (splitBuddyAddr currentAddr currentOrder)) <
              (PmmPlace.walking currentOrder
                (sub32 currentAddr sys.baseAddr / pageSize) currentAddr
                pos).remaining sys := by
          have same : walksFrom (sys.delFree currentOrder
              (splitBuddyAddr currentAddr currentOrder)) (currentOrder + 1) =
                walksFrom sys (currentOrder + 1) :=
            walksFrom_congr fun other above => by
              simp [BuddySystem.delFree, Nat.ne_of_gt above]
          simp only [PmmPlace.remaining, same]
          omega
        rw [if_pos free] at finishes
        rw [if_pos found]
        by_cases above : currentAddr > splitBuddyAddr currentAddr currentOrder
        · rw [if_pos above] at joined ⊢
          simp only [above, if_true] at finishes
          exact ⟨_, ⟨deleted, joined, baseAddr, rfl, finishes⟩, fewer _ _⟩
        · rw [if_neg above] at joined ⊢
          simp only [above, if_false] at finishes
          exact ⟨_, ⟨deleted, joined, baseAddr, rfl, finishes⟩, fewer _ _⟩
      · rw [if_neg found]
        refine ⟨sys, ⟨implements, invariant, baseAddr, ⟨rfl, below,
          passed ++ [pos], others, by simpa using listed, ?_,
          list.visits.next_eq⟩, ?_⟩, ?_⟩
        · simp only [List.mem_append, List.mem_singleton, not_or]
          exact ⟨notPassed, Ne.symm found⟩
        · simpa only [PmmPlace.finish, fuel, invariant.mergeLoop_round _ below]
            using finishes
        · rw [list.visits.next_eq]
          have nearer := list.idxOf_lt
          rw [← listed] at nearer
          simp only [PmmPlace.remaining]
          omega

/-- What a statement under the lock does. -/
theorem statement
    {place : PmmPlace}
    (midway : Midway freeList memoryStart live pool whole place linked sys)
    (inFront : ∀ order ≤ maxOrder, freeList order < memoryStart) :
    Advances freeList memoryStart live pool whole (place.remaining sys)
      (place.statement freeList linked) := by
  cases place with
  | searching order currentOrder => exact midway.searching
  | taking order currentOrder => exact midway.taking
  | splitting order currentOrder pageAddr => exact midway.splitting inFront
  | marking order pageAddr i => exact midway.marking
  | clearing order pageAddr i => exact midway.clearing
  | merging currentOrder pageIdx currentAddr => exact midway.merging inFront
  | walking currentOrder pageIdx currentAddr pos => exact midway.walking inFront

/-- A place stays right when the sequences and the base stay. -/
theorem disturb
    {place : PmmPlace} {written : ListMemory}
    (midway : Midway freeList memoryStart live pool whole place linked sys)
    (inFront : ∀ order ≤ maxOrder, freeList order < memoryStart)
    (inside : ∀ node, (∀ block ∈ live, node / pageSize ∉ block.pages) →
      written.next node = linked.links.next node ∧
        written.prev node = linked.links.prev node) :
    Midway freeList memoryStart live pool whole place
      { linked with links := written } sys :=
  { midway with
    implements := midway.implements.write (midway.baseAddr.symm ▸ inFront)
      midway.invariant fun node apart => inside node fun block member =>
        apart block (List.mem_append_right _ member) }

end Midway

/-! ## The proof of the lock -/

section Locked

variable (freeList : Nat → Nat) (prior : BuddySystem)
variable (memoryStart memoryEnd : Nat)

/-- The other blocks that are outstanding while a call runs. -/
def PmmCall.others (live : List PageBlock) : PmmCall → List PageBlock
  | .alloc _ => live
  | .free block => live.erase block

/-- A release that is called keeps its block out of the clients' hands. -/
def PmmClients.Waits
    {Cpu : Type}
    (clients : PmmClients Cpu) (cpu : Cpu) : PmmCall → Prop
  | .alloc order => order ≤ maxOrder
  | .free block => (cpu, block) ∈ clients.freeing

/-- What holds of the allocator in every phase of its lock. -/
def PmmHolds
    {Cpu : Type}
    (clients : PmmClients Cpu)
    (phase : LockPhase Cpu PmmCall PmmPlace PmmResult)
    (linked : LinkedSystem) : Prop :=
  ∃ run, PmmTrace prior memoryStart memoryEnd clients.history run ∧
    run.live.Perm (clients.owned ++ clients.freeing.map Prod.snd) ∧
    match phase with
    | .free => Implements freeList linked run.sys
    | .inside cpu call place =>
        clients.Waits cpu call ∧
          ∃ sys, Midway freeList memoryStart (call.others run.live)
            (pmmInit prior memoryStart memoryEnd).freePages
            (call.perform run.sys) place linked sys
    | .releasing cpu call result =>
        clients.Waits cpu call ∧
          ∃ sys, Implements freeList linked sys ∧
            call.perform run.sys = (result, sys)

variable {freeList prior memoryStart memoryEnd}
variable {Cpu : Type}
variable {clients : PmmClients Cpu} {cpu other : Cpu} {call : PmmCall}
variable {linked : LinkedSystem} {run : PmmRun}

namespace PmmClients

/-- The block of a release that waits is outstanding. -/
theorem Waits.held
    (waits : clients.Waits cpu call)
    (accounts :
      run.live.Perm (clients.owned ++ clients.freeing.map Prod.snd))
    (block : PageBlock)
    (isFree : call = .free block) :
    block ∈ run.live := by
  subst isFree
  exact accounts.mem_iff.mpr
    (List.mem_append_right _ (List.mem_map.mpr ⟨(cpu, block), waits, rfl⟩))

/-- A call that waits goes on waiting when other calls begin. -/
theorem Waits.called
    (waits : clients.Waits cpu call)
    (otherCall : PmmCall) :
    (clients.called other otherCall).Waits cpu call := by
  cases call with
  | alloc order => exact waits
  | free block =>
      cases otherCall with
      | alloc order => exact waits
      | free otherBlock => exact List.mem_cons_of_mem _ waits

/-- A call that waits goes on waiting when other calls return. -/
theorem Waits.returned
    [DecidableEq Cpu]
    (waits : clients.Waits cpu call)
    (different : other ≠ cpu)
    (otherCall : PmmCall)
    (result : PmmResult) :
    (clients.returned other otherCall result).Waits cpu call := by
  cases call with
  | alloc order => exact waits
  | free block =>
      have kept : (cpu, block) ∈ clients.freeing := waits
      cases otherCall with
      | free otherBlock =>
          refine (List.mem_erase_of_ne ?_).mpr kept
          exact fun same => different (Prod.mk.inj same).1.symm
      | alloc order =>
          cases result with
          | released => exact kept
          | address addr =>
              simp only [PmmClients.returned]
              split <;> exact kept

end PmmClients

/-- The base of the region is the same in every phase. -/
theorem PmmHolds.baseAddr
    {phase : LockPhase Cpu PmmCall PmmPlace PmmResult}
    (holds : PmmHolds freeList prior memoryStart memoryEnd clients phase linked) :
    linked.baseAddr = memoryStart := by
  obtain ⟨run, trace, accounts, inPhase⟩ := holds
  cases phase with
  | free =>
      exact inPhase.baseAddr.trans trace.reachable.baseAddr
  | inside cpu call place =>
      obtain ⟨_, sys, midway⟩ := inPhase
      exact midway.implements.baseAddr.trans midway.baseAddr
  | releasing cpu call result =>
      obtain ⟨waits, sys, implements, performed⟩ := inPhase
      have next := (trace.call call (waits.held accounts)).reachable.baseAddr
      simp only [PmmCall.after, performed] at next
      exact implements.baseAddr.trans next

variable [DecidableEq Cpu]

/-- A block whose release returns is not outstanding any more. -/
theorem PmmClients.accounts_erase
    {block : PageBlock}
    (accounts :
      run.live.Perm (clients.owned ++ clients.freeing.map Prod.snd))
    (waits : (cpu, block) ∈ clients.freeing) :
    (run.live.erase block).Perm
      (clients.owned ++ (clients.freeing.erase (cpu, block)).map Prod.snd) := by
  have first := (List.perm_cons_erase waits).map Prod.snd
  have moved := (accounts.trans (first.append_left clients.owned)).trans
    List.perm_middle
  simpa using moved.erase block

/-- Blocks in the hands of clients stay outstanding during the calls. -/
theorem PmmCall.owned_subset
    (accounts :
      run.live.Perm (clients.owned ++ clients.freeing.map Prod.snd))
    (waits : clients.Waits cpu call)
    {block : PageBlock}
    (owned : block ∈ clients.owned) :
    block ∈ call.others run.live := by
  cases call with
  | alloc order =>
      exact accounts.mem_iff.mpr (List.mem_append_left _ owned)
  | free released =>
      exact (PmmClients.accounts_erase accounts waits).mem_iff.mpr
        (List.mem_append_left _ owned)

@[simp] theorem PmmClients.returned_history (result : PmmResult) :
    (clients.returned cpu call result).history =
      clients.history ++ [(call, result)] := by
  cases call with
  | free block => rfl
  | alloc order =>
      cases result with
      | released => rfl
      | address addr =>
          simp only [returned]
          split <;> rfl

/-- The blocks the clients hold when a call has returned. -/
theorem PmmClients.accounts_returned
    (accounts :
      run.live.Perm (clients.owned ++ clients.freeing.map Prod.snd))
    (waits : clients.Waits cpu call) :
    (call.after run).live.Perm
      ((clients.returned cpu call (call.perform run.sys).1).owned ++
        (clients.returned cpu call (call.perform run.sys).1).freeing.map
          Prod.snd) := by
  cases call with
  | alloc order =>
      simp only [PmmCall.after, PmmCall.perform, PmmClients.returned]
      split
      · exact accounts
      · exact accounts.cons _
  | free block =>
      exact PmmClients.accounts_erase accounts waits

omit [DecidableEq Cpu] in
/-- A call can begin when the lock is free. -/
theorem PmmHolds.enter
    (aligned : 2 ^ 23 ∣ memoryStart)
    (ordered : memoryStart < memoryEnd)
    (inRange : memoryEnd < 2 ^ 32)
    (holds : PmmHolds freeList prior memoryStart memoryEnd clients .free linked)
    (waits : clients.Waits cpu call) :
    PmmHolds freeList prior memoryStart memoryEnd clients
      (.inside cpu call call.enter) linked := by
  obtain ⟨run, trace, accounts, implements⟩ := holds
  have invariant := trace.reachable.invariant aligned ordered inRange
  refine ⟨run, trace, accounts, waits, run.sys, ?_⟩
  have base := trace.reachable.baseAddr
  cases call with
  | alloc order =>
      have bound : order ≤ maxOrder := waits
      refine ⟨implements, invariant, base, ⟨Nat.le_refl _, by omega,
        fun other => by omega⟩, PmmCall.finish_enter implements.baseAddr ?_⟩
      simp [PmmCall.refuse, bound]
  | free block =>
      have held := waits.held accounts block rfl
      have kept := invariant.perm (List.perm_cons_erase held)
      have bound : block.order ≤ maxOrder := invariant.orderLe block held
      have bounds := kept.addr_bounds block (List.mem_cons_self ..)
      refine ⟨implements, kept, base, trivial,
        PmmCall.finish_enter implements.baseAddr ?_⟩
      simp [PmmCall.refuse, bound, implements.baseAddr, Nat.le_of_lt bounds.1]

/-- A call that has its result is over when it releases the lock. -/
theorem PmmHolds.returned
    {result : PmmResult}
    (holds : PmmHolds freeList prior memoryStart memoryEnd clients
      (.releasing cpu call result) linked) :
    PmmHolds freeList prior memoryStart memoryEnd
      (clients.returned cpu call result) .free linked := by
  obtain ⟨run, trace, accounts, waits, sys, implements, performed⟩ := holds
  have next := trace.call call (waits.held accounts)
  have after := PmmClients.accounts_returned accounts waits
  rw [performed] at next after
  refine ⟨call.after run, ?_, after, ?_⟩
  · rwa [PmmClients.returned_history]
  · simp only [PmmCall.after, performed]
    exact implements

/-- Clients may write into the blocks they hold in every phase. -/
theorem PmmHolds.disturbed
    (heads : HeadsInFront freeList memoryStart)
    (aligned : 2 ^ 23 ∣ memoryStart)
    (ordered : memoryStart < memoryEnd)
    (inRange : memoryEnd < 2 ^ 32)
    {phase : LockPhase Cpu PmmCall PmmPlace PmmResult}
    {written : ListMemory}
    (holds : PmmHolds freeList prior memoryStart memoryEnd clients phase linked)
    (inside : ∀ node,
      (∀ block ∈ clients.owned, node / pageSize ∉ block.pages) →
        written.next node = linked.links.next node ∧
          written.prev node = linked.links.prev node) :
    PmmHolds freeList prior memoryStart memoryEnd clients phase
      { linked with links := written } := by
  obtain ⟨run, trace, accounts, inPhase⟩ := holds
  refine ⟨run, trace, accounts, ?_⟩
  cases phase with
  | free =>
      have invariant := trace.reachable.invariant aligned ordered inRange
      refine Implements.write inPhase ?_ invariant fun node apart =>
        inside node fun block owned => apart block ?_
      · rw [trace.reachable.baseAddr]
        exact heads.inFront
      · exact accounts.mem_iff.mpr (List.mem_append_left _ owned)
  | inside cpu call place =>
      obtain ⟨waits, sys, midway⟩ := inPhase
      exact ⟨waits, sys, midway.disturb heads.inFront fun node apart =>
        inside node fun block owned =>
          apart block (call.owned_subset accounts waits owned)⟩
  | releasing cpu call result =>
      obtain ⟨waits, sys, implements, performed⟩ := inPhase
      have next := (trace.call call (waits.held accounts)).reachable
      have invariant := next.invariant aligned ordered inRange
      have base := next.baseAddr
      have after : (call.after run).sys = sys := by
        simp only [PmmCall.after, performed]
      rw [after] at invariant base
      refine ⟨waits, sys, implements.write ?_ invariant fun node apart =>
        inside node fun block owned => apart block ?_, performed⟩
      · rw [base]
        exact heads.inFront
      · have kept := call.owned_subset accounts waits owned
        cases call with
        | free released => exact kept
        | alloc order =>
            simp only [PmmCall.after]
            split
            · exact kept
            · exact List.mem_cons_of_mem _ kept

/-- A call that the checks refuse changes nothing. -/
theorem PmmHolds.refused
    (aligned : 2 ^ 23 ∣ memoryStart)
    (ordered : memoryStart < memoryEnd)
    (inRange : memoryEnd < 2 ^ 32)
    {phase : LockPhase Cpu PmmCall PmmPlace PmmResult}
    {result : PmmResult}
    (holds : PmmHolds freeList prior memoryStart memoryEnd clients phase linked)
    (allowed : ∀ block, call = .free block → block ∈ clients.owned)
    (refused : call.refuse linked = some result) :
    PmmHolds freeList prior memoryStart memoryEnd
      ((clients.called cpu call).returned cpu call result) phase linked := by
  have base := holds.baseAddr
  obtain ⟨run, trace, accounts, inPhase⟩ := holds
  cases call with
  | free block =>
      -- a block in the hands of a client passes the checks
      have held := accounts.mem_iff.mpr
        (List.mem_append_left _ (allowed block rfl))
      have invariant := trace.reachable.invariant aligned ordered inRange
      have bound := invariant.orderLe block held
      have bounds := (invariant.addr_bounds block
        (List.mem_append_left _ held)).1
      rw [trace.reachable.baseAddr, ← base] at bounds
      rw [PmmCall.refuse, if_neg (by omega)] at refused
      cases refused
  | alloc order =>
      rw [PmmCall.refuse] at refused
      split at refused
      · rename_i tooLarge
        obtain rfl := Option.some.inj refused
        have same : pmmAllocPages run.sys order = (0, run.sys) := by
          rw [pmmAllocPages, if_pos tooLarge]
        have next := trace.call (.alloc order) fun _ isFree => by cases isFree
        simp only [PmmCall.after, PmmCall.perform, same, if_true] at next
        refine ⟨run, ?_, accounts, inPhase⟩
        simpa [PmmClients.called, PmmClients.returned] using next
      · cases refused

omit [DecidableEq Cpu] in
/-- A call that begins takes nothing from the blocks that are outstanding. -/
theorem PmmHolds.called
    {phase : LockPhase Cpu PmmCall PmmPlace PmmResult}
    (holds : PmmHolds freeList prior memoryStart memoryEnd clients phase linked)
    (allowed : ∀ block, call = .free block → block ∈ clients.owned) :
    PmmHolds freeList prior memoryStart memoryEnd (clients.called cpu call)
      phase linked := by
  obtain ⟨run, trace, accounts, inPhase⟩ := holds
  refine ⟨run, ?_, ?_, ?_⟩
  · cases call <;> exact trace
  · cases call with
    | alloc order => exact accounts
    | free block =>
        refine accounts.trans (((List.perm_cons_erase
          (allowed block rfl)).append_right _).trans ?_)
        exact List.perm_middle.symm
  · cases phase with
    | free => exact inPhase
    | inside owner ownerCall place =>
        exact ⟨inPhase.1.called call, inPhase.2⟩
    | releasing owner ownerCall result =>
        exact ⟨inPhase.1.called call, inPhase.2⟩

variable (prior) in
/-- The assertions of the allocator pass every step. -/
def lockedPmmProof
    (heads : HeadsInFront freeList memoryStart)
    (aligned : 2 ^ 23 ∣ memoryStart)
    (ordered : memoryStart < memoryEnd)
    (inRange : memoryEnd < 2 ^ 32) :
    LockProof (lockedPmm freeList Cpu) where
  Holds := PmmHolds freeList prior memoryStart memoryEnd
  Waits := PmmClients.Waits
  called := by
    intro clients phase linked cpu call holds allowed
    refine holds.called fun block isFree => ?_
    subst isFree
    exact allowed
  refused := by
    intro clients phase linked cpu call result holds allowed refused
    refine holds.refused aligned ordered inRange (fun block isFree => ?_) refused
    subst isFree
    exact allowed
  disturbed := by
    rintro clients phase linked after holds ⟨written, rfl, inside⟩
    exact holds.disturbed heads aligned ordered inRange inside
  waits_own := by
    intro clients phase linked cpu call _ allowed accepted
    cases call with
    | alloc order =>
        by_contra tooLarge
        have above : order > maxOrder := Nat.lt_of_not_le tooLarge
        simp [lockedPmm, PmmCall.refuse, above] at accepted
    | free block =>
        exact List.mem_cons_self ..
  waits_called := fun otherCall waits _ => waits.called otherCall
  waits_returned := fun otherCall result waits different =>
    waits.returned different otherCall result
  enter := fun holds waits => holds.enter aligned ordered inRange waits
  statement := by
    rintro clients linked cpu call place after next
      ⟨run, trace, accounts, waits, sys, midway⟩ done
    have advances := midway.statement heads.inFront
    rw [show place.statement freeList linked = _ from done] at advances
    obtain ⟨later, goesOn, _⟩ := advances
    exact ⟨run, trace, accounts, waits, later, goesOn⟩
  finish := by
    rintro clients linked cpu call place after result
      ⟨run, trace, accounts, waits, sys, midway⟩ done
    have advances := midway.statement heads.inFront
    rw [show place.statement freeList linked = _ from done] at advances
    obtain ⟨last, implements, _, performed⟩ := advances
    exact ⟨run, trace, accounts, waits, last, implements, performed⟩
  returned := fun holds => holds.returned

end Locked

/-- The heads of `buddy_sys` in the image of the kernel. -/
def bootFreeList (order : Nat) : Nat :=
  0x110010 + 12 * order

theorem bootFreeList_headsInFront : HeadsInFront bootFreeList 0x01000000 where
  distinct := by
    intro order _ other _ same
    simp only [bootFreeList] at same
    omega
  inFront := by
    intro order bound
    simp only [bootFreeList, maxOrder] at bound ⊢
    omega

/-- A `buddy_sys` before `pmm_init`. -/
def bssLinked : LinkedSystem where
  totalPages := 0
  managedPages := 0
  baseAddr := 0
  nrFree := fun _ => 0
  links := ⟨fun _ => 0, fun _ => 0⟩
  bitmap := fun _ => 0

/-- Two processors and the allocator of the boot region. -/
def lockedBoot : LockedState Spinlock LinkedSystem (PmmClients Bool) Bool
    PmmCall PmmPlace PmmResult where
  lock := spinlockInit
  object := bssLinked.pmmInit bootFreeList 0x01000000 0x02000000
  clients := PmmClients.none
  threads := fun _ => .idle

/-- One processor has taken the lock while the other one waits for it. -/
def contended : LockedState Spinlock LinkedSystem (PmmClients Bool) Bool
    PmmCall PmmPlace PmmResult :=
  let called := (lockedBoot.move false (.spinning (PmmCall.alloc 0))).move true
    (.spinning (PmmCall.alloc 3))
  (called.tick spinlock (lockedPmm bootFreeList Bool) false).tick spinlock
    (lockedPmm bootFreeList Bool) true

theorem contended_reachable :
    LockedReachable spinlock (lockedPmm bootFreeList Bool)
      (bssLinked.pmmInit bootFreeList 0x01000000 0x02000000) PmmClients.none
      contended := by
  have first : LockedStep spinlock (lockedPmm bootFreeList Bool) lockedBoot
      (lockedBoot.move false (.spinning (PmmCall.alloc 0))) :=
    LockedStep.call lockedBoot false (PmmCall.alloc 0) rfl trivial rfl
  have second : LockedStep spinlock (lockedPmm bootFreeList Bool)
      (lockedBoot.move false (.spinning (PmmCall.alloc 0)))
      ((lockedBoot.move false (.spinning (PmmCall.alloc 0))).move true
        (.spinning (PmmCall.alloc 3))) :=
    LockedStep.call _ true (PmmCall.alloc 3) rfl trivial rfl
  exact (((Relation.ReflTransGen.single first).tail second).tail
    (LockedStep.tick _ false)).tail (LockedStep.tick _ true)

end Pmm

end MatrixOS
