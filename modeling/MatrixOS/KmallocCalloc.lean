import MatrixOS.KmallocRealloc

namespace MatrixOS.Kmalloc

open ByteMemory Layout RunningMinimum

/-!
# Cleared arrays

`kcalloc` takes the product of its arguments in 32 bits and asks `kmalloc` for
that many bytes.  A product that does not fit is cut to a small request, which
`kmalloc` has no reason to refuse.
-/

/-- The requests that `kmalloc` answers with `NULL`. -/
def Refused (blocks : List HeapBlock) (size : Nat) : Prop :=
  size = 0 ∨ kmallocMaxSize < size ∨
    ∀ block ∈ blocks, ¬ Fits (roundedSize size) block

/--
`kcalloc` returns `NULL`, or a pointer to at least `num * size` bytes of which
so many are zero.
-/
def CallocRight (heap : Heap) (num size : Nat) : Prop :=
  ∃ ptr next, kcalloc heap num size = some (ptr, next) ∧
    (ptr = 0 ∨ num * size ≤ capacity next ptr ∧
      ∀ offset < num * size, next.mem (ptr + offset) = 0)

namespace HeapInvariant

variable {heap : Heap} {start : Nat} {live : Live} {blocks : List HeapBlock}

/-- A request that is not refused gets a block of at least its size. -/
theorem kmalloc_refused
    (invariant : HeapInvariant heap start blocks live)
    (size : Nat) :
    Refused blocks size ∧ Kmalloc.kmalloc heap size = some (0, heap) ∨
      ¬ Refused blocks size ∧
        ∃ ptr next, Kmalloc.kmalloc heap size = some (ptr, next) ∧
          ptr ≠ 0 ∧ size ≤ capacity next ptr ∧ capacity next ptr < heapSize ∧
          ∀ offset < size, next.mem (ptr + offset) = 0 := by
  by_cases zero : size = 0
  · exact Or.inl ⟨Or.inl zero, invariant.kmalloc_of_none (Or.inl zero)⟩
  by_cases large : kmallocMaxSize < size
  · exact Or.inl ⟨Or.inr (Or.inl large),
      invariant.kmalloc_of_none (Or.inr (Or.inl large))⟩
  have small : size ≤ kmallocMaxSize := Nat.not_lt.mp large
  have isBest := bestFitBlock_isBest (actualSizeFor size) blocks
  cases found : bestFitBlock (actualSizeFor size) blocks none with
  | none =>
      rw [found, actualSizeFor_eq_roundedSize small] at isBest
      exact Or.inl ⟨Or.inr (Or.inr isBest),
        invariant.kmalloc_of_none (Or.inr (Or.inr found))⟩
  | some block =>
      rw [found] at isBest
      obtain ⟨before, after, rfl, first⟩ := isBest
      obtain ⟨free, fits⟩ := first.fits
      obtain ⟨next, result, kept, zeros, _⟩ :=
        invariant.kmalloc_takes zero small found free fits
      have enough := (invariant.take zero small free).2.1
      have bounds := le_takenSize fits
      have inHeap := invariant.chain.bounds
        (show block ∈ before ++ block :: after by simp)
      have listed : takenBlock block (actualSizeFor size) ∈
          before ++ (takeBlock block (actualSizeFor size) ++ after) := by
        simp [takenBlock_mem]
      have usable := kept.capacity_eq listed
      simp only [takenBlock] at usable
      refine Or.inr ⟨?_, _, next, result, ?_, ?_, ?_, fun offset inside =>
        zeros _ ⟨Nat.le_add_right _ _, by omega⟩⟩
      · rintro (isZero | isLarge | noBlock)
        · exact zero isZero
        · exact large isLarge
        · rw [actualSizeFor_eq_roundedSize small] at fits
          exact noBlock block (by simp) ⟨free, fits⟩
      · simp only [headerSize]
        omega
      · omega
      · simp only [headerSize] at enough usable ⊢
        omega

/-- The request is right unless the product is cut and not refused. -/
theorem kcalloc_right
    (invariant : HeapInvariant heap start blocks live)
    (num size : Nat) :
    CallocRight heap num size ↔
      num * size < 2 ^ 32 ∨ Refused blocks (wrap32 (num * size)) := by
  rcases invariant.kmalloc_refused (wrap32 (num * size)) with
    ⟨refused, result⟩ | ⟨accepted, ptr, next, result, nonzero, enough, inHeap,
      zeros⟩
  · rw [← invariant.kcalloc_eq] at result
    exact iff_of_true ⟨0, heap, result, Or.inl rfl⟩ (Or.inr refused)
  · rw [← invariant.kcalloc_eq] at result
    constructor
    · rintro ⟨otherPtr, other, done, null | ⟨usable, _⟩⟩
      · obtain ⟨rfl, rfl⟩ := Prod.mk.inj (Option.some.inj (done.symm.trans result))
        exact absurd null nonzero
      · -- no block of the heap is as long as a product that does not fit
        obtain ⟨rfl, rfl⟩ := Prod.mk.inj (Option.some.inj (done.symm.trans result))
        have heapBytes : heapSize = 1048576 := rfl
        exact Or.inl (by omega)
    · rintro (fits | refused)
      · rw [wrap32_of_lt fits] at enough zeros
        exact ⟨ptr, next, result, Or.inr ⟨enough, zeros⟩⟩
      · exact absurd refused accepted

end HeapInvariant

/--
In every state of a run and for every pair of factors, `kcalloc` does what it
should exactly when the product fits into 32 bits or what is left of it is a
request that `kmalloc` refuses.
-/
theorem callocRight_iff
    {sys : Pmm.BuddySystem}
    (granted : HeapGranted sys)
    {mem : Memory}
    {run : HeapRun}
    (reached : HeapReachable sys mem run)
    (num size : Nat) :
    ∃ blocks, chainBlocks run.heap = some blocks ∧
      (CallocRight run.heap num size ↔
        num * size < 2 ^ 32 ∨ Refused blocks (wrap32 (num * size))) := by
  obtain ⟨blocks, invariant⟩ := reached.invariant granted
  exact ⟨blocks, invariant.chainBlocks_eq, invariant.kcalloc_right num size⟩

theorem callocRight_iff_boot :
    ∃ blocks, chainBlocks (initialHeap bootSys fun _ => 0) = some blocks ∧
      (CallocRight (initialHeap bootSys fun _ => 0) 10 8 ↔
        10 * 8 < 2 ^ 32 ∨ Refused blocks (wrap32 (10 * 8))) :=
  callocRight_iff bootSys_granted .init 10 8

/-- `0x20000001 * 8` is cut to 8, which the fresh heap has. -/
theorem not_callocRight :
    ¬ CallocRight (initialHeap bootSys fun _ => 0) 0x20000001 8 := by
  intro right
  have cut : wrap32 (0x20000001 * 8) = 8 := rfl
  rcases ((initialHeap_invariant bootSys_granted fun _ => 0).kcalloc_right
    _ _).mp right with fits | refused
  · omega
  · rw [cut] at refused
    rcases refused with zero | large | noBlock
    · cases zero
    · exact absurd large (by decide)
    · exact noBlock ⟨heapStart bootSys, heapSize, true⟩ (by simp)
        ⟨rfl, show roundedSize 8 ≤ heapSize by decide⟩

end MatrixOS.Kmalloc
