import Mathlib.Data.List.Chain
import MatrixOS.KmallocOps

namespace MatrixOS.Kmalloc

/-!
# Coalescing

Taking a block and releasing a block leave no two free blocks next to each
other.
-/

/-- No two consecutive blocks are both free. -/
def Coalesced (blocks : List HeapBlock) : Prop :=
  blocks.IsChain fun left right =>
    ¬ (left.isFree = true ∧ right.isFree = true)

section Coalesced

variable {blocks before after : List HeapBlock} {block other : HeapBlock}

/-- Only the flag of the block in front matters to the blocks behind it. -/
theorem Coalesced.replaceHead
    (coalesced : Coalesced (block :: after))
    (sameFlag : other.isFree = block.isFree) :
    Coalesced (other :: after) := by
  rw [Coalesced, List.isChain_cons] at coalesced ⊢
  rwa [sameFlag]

/-- Only the flag of the last block matters to the blocks in front of it. -/
theorem Coalesced.replaceLast
    (coalesced : Coalesced (before ++ [block]))
    (sameFlag : other.isFree = block.isFree) :
    Coalesced (before ++ [other]) := by
  rw [Coalesced, List.isChain_append] at coalesced ⊢
  refine ⟨coalesced.1, List.isChain_singleton _, ?_⟩
  simpa [sameFlag] using coalesced.2.2

theorem coalesced_split :
    Coalesced (before ++ block :: after) ↔
      Coalesced (before ++ [block]) ∧ Coalesced (block :: after) :=
  List.isChain_split

/-- A block in use may stand anywhere. -/
theorem Coalesced.cons_used
    (coalesced : Coalesced after)
    (used : block.isFree = false) :
    Coalesced (block :: after) := by
  rw [Coalesced, List.isChain_cons]
  exact ⟨fun _ _ both => by simp [used] at both, coalesced⟩

theorem Coalesced.append_used
    (coalesced : Coalesced before)
    (used : block.isFree = false) :
    Coalesced (before ++ [block]) := by
  rw [Coalesced, List.isChain_append]
  refine ⟨coalesced, List.isChain_singleton _, fun _ _ next member both => ?_⟩
  obtain rfl : block = next := by simpa using member
  simp [used] at both

theorem joinNext_isFree
    (free : block.isFree = true)
    (after : List HeapBlock) :
    (joinNext block after).1.isFree = true := by
  cases after with
  | nil =>
      exact free
  | cons next rest =>
      rw [joinNext]
      split <;> exact free

/-- After a forward merge no free block follows. -/
theorem coalesced_joinNext
    (coalesced : Coalesced after)
    (free : block.isFree = true) :
    Coalesced ((joinNext block after).1 :: (joinNext block after).2) := by
  cases after with
  | nil =>
      exact List.isChain_singleton _
  | cons next rest =>
      rw [joinNext]
      split
      · rename_i nextFree
        exact coalesced.replaceHead (free.trans nextFree.symm)
      · rename_i nextUsed
        rw [Coalesced, List.isChain_cons_cons]
        exact ⟨fun both => nextUsed both.2, coalesced⟩

/-- After a backward merge no free block precedes. -/
theorem coalesced_joinPrev
    (front : Coalesced before)
    (back : Coalesced (block :: after))
    (free : block.isFree = true) :
    Coalesced (joinPrev block before ++ after) := by
  rcases List.eq_nil_or_concat before with rfl | ⟨earlier, prev, rfl⟩
  · exact back
  · rw [List.concat_eq_append] at front ⊢
    rw [joinPrev_append]
    split
    · rename_i prevFree
      rw [List.append_assoc, List.singleton_append, coalesced_split]
      exact ⟨front.replaceLast rfl, back.replaceHead (prevFree.trans free.symm)⟩
    · rename_i prevUsed
      have used : prev.isFree = false := by simpa using prevUsed
      rw [List.append_assoc, List.cons_append, List.singleton_append,
        coalesced_split]
      exact ⟨front, back.cons_used used⟩

/-- A release joins the block with both neighbours. -/
theorem coalesced_releaseBlocks
    (coalesced : Coalesced (before ++ block :: after)) :
    Coalesced (releaseBlocks before block after) := by
  obtain ⟨front, back, _⟩ := List.isChain_append.mp coalesced
  have joined : Coalesced
      ((joinNext { block with isFree := true } after).1 ::
        (joinNext { block with isFree := true } after).2) :=
    coalesced_joinNext back.tail rfl
  exact coalesced_joinPrev front joined (joinNext_isFree rfl after)

/-- The rest of a block that is taken has only blocks in use around it. -/
theorem coalesced_takeBlock
    (coalesced : Coalesced (before ++ block :: after))
    (free : block.isFree = true)
    (actualSize : Nat) :
    Coalesced (before ++ (takeBlock block actualSize ++ after)) := by
  obtain ⟨front, back, _⟩ := List.isChain_append.mp coalesced
  rw [takeBlock]
  split
  · rw [List.cons_append, List.singleton_append, coalesced_split]
    refine ⟨Coalesced.append_used front rfl, Coalesced.cons_used ?_ rfl⟩
    exact Coalesced.replaceHead back free.symm
  · rw [List.singleton_append, coalesced_split]
    exact ⟨Coalesced.append_used front rfl, Coalesced.cons_used back.tail rfl⟩

end Coalesced

end MatrixOS.Kmalloc
