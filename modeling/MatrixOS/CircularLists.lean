import Mathlib.Data.List.Chain
import Mathlib.Data.List.Nodup
import Mathlib.Logic.Function.Basic

namespace MatrixOS.CircularLists

/-!
# Circular lists

Every node is linked to the node behind it and to the node in front of it.  The
nodes of a list and its head form a circle.  A list with one more or one less
node is known by a few of its links, whatever became of the links of nodes that
do not belong to it.
-/

/-- The links of the nodes. -/
structure Links (α : Type*) where
  next : α → α
  prev : α → α

variable {α : Type*}

section Updates

variable [DecidableEq α]

/-- Write a link to the node behind. -/
def Links.setNext (links : Links α) (node target : α) : Links α :=
  { links with next := Function.update links.next node target }

/-- Write a link to the node in front. -/
def Links.setPrev (links : Links α) (node target : α) : Links α :=
  { links with prev := Function.update links.prev node target }

variable {links : Links α} {node target : α}

@[simp] theorem next_setNext :
    (links.setNext node target).next =
      Function.update links.next node target :=
  rfl

@[simp] theorem prev_setNext :
    (links.setNext node target).prev = links.prev :=
  rfl

@[simp] theorem next_setPrev :
    (links.setPrev node target).next = links.next :=
  rfl

@[simp] theorem prev_setPrev :
    (links.setPrev node target).prev =
      Function.update links.prev node target :=
  rfl

end Updates

/-! ## Lists -/

/-- From `node` on, the links to the nodes behind visit `nodes`, then `stop`. -/
def Visits (links : Links α) (stop : α) : (node : α) → (nodes : List α) → Prop
  | node, [] => node = stop
  | node, first :: rest => node = first ∧ Visits links stop (links.next node) rest

/-- `head` is the head of the list of `nodes`. -/
structure CircularList (links : Links α) (head : α) (nodes : List α) : Prop where
  distinct : nodes.Nodup
  apart : head ∉ nodes
  visits : Visits links head (links.next head) nodes
  back : ∀ node ∈ head :: nodes, links.prev (links.next node) = node

/-- What a walk visits is determined by the links. -/
theorem Visits.unique
    {links : Links α} {stop node : α} {nodes others : List α}
    (visits : Visits links stop node nodes)
    (alsoVisits : Visits links stop node others)
    (apart : stop ∉ nodes)
    (othersApart : stop ∉ others) :
    nodes = others := by
  induction nodes generalizing node others with
  | nil =>
      cases others with
      | nil => rfl
      | cons first rest =>
          have isStop : first = stop := alsoVisits.1.symm.trans visits
          exact absurd (isStop ▸ List.mem_cons_self ..) othersApart
  | cons first rest inductionHypothesis =>
      rw [List.mem_cons, not_or] at apart
      cases others with
      | nil =>
          have isStop : first = stop := visits.1.symm.trans alsoVisits
          exact absurd isStop.symm apart.1
      | cons other others =>
          rw [List.mem_cons, not_or] at othersApart
          have same : first = other := visits.1.symm.trans alsoVisits.1
          rw [same, inductionHypothesis visits.2 alsoVisits.2 apart.2
            othersApart.2]

theorem CircularList.unique
    {links : Links α} {head : α} {nodes others : List α}
    (list : CircularList links head nodes)
    (otherList : CircularList links head others) :
    nodes = others :=
  list.visits.unique otherList.visits list.apart otherList.apart

/-- Both links between a node and the node behind it. -/
def Linked (links : Links α) (node behind : α) : Prop :=
  links.next node = behind ∧ links.prev behind = node

section Chains

variable {links changed : Links α} {head new entry : α} {nodes : List α}

theorem visits_iff_isChain {node stop : α} :
    (Visits links stop (links.next node) nodes ∧
      ∀ visited ∈ node :: nodes, links.prev (links.next visited) = visited) ↔
    (node :: (nodes ++ [stop])).IsChain (Linked links) := by
  induction nodes generalizing node with
  | nil =>
      simp only [Visits, List.nil_append, List.mem_singleton, forall_eq,
        List.isChain_cons_cons, List.isChain_singleton, and_true, Linked]
      constructor
      · rintro ⟨rfl, back⟩
        exact ⟨rfl, back⟩
      · rintro ⟨rfl, back⟩
        exact ⟨rfl, back⟩
  | cons first rest inductionHypothesis =>
      rw [List.cons_append, List.isChain_cons_cons, ← inductionHypothesis,
        List.forall_mem_cons, Visits, Linked]
      constructor
      · rintro ⟨⟨rfl, visits⟩, back, rest⟩
        exact ⟨⟨rfl, back⟩, visits, rest⟩
      · rintro ⟨⟨rfl, back⟩, visits, rest⟩
        exact ⟨⟨rfl, visits⟩, back, rest⟩

/-- A list is a chain of links from its head to its head. -/
theorem circularList_iff :
    CircularList links head nodes ↔
      (head :: nodes).Nodup ∧
        (head :: (nodes ++ [head])).IsChain (Linked links) := by
  rw [← visits_iff_isChain, List.nodup_cons]
  constructor
  · intro list
    exact ⟨⟨list.apart, list.distinct⟩, list.visits, list.back⟩
  · rintro ⟨⟨apart, distinct⟩, visits, back⟩
    exact ⟨distinct, apart, visits, back⟩

/-- A chain does not depend on what its last node has behind it. -/
theorem isChain_congr
    (chain : nodes.IsChain (Linked links))
    (sameNext : ∀ node ∈ nodes.dropLast, changed.next node = links.next node)
    (samePrev : ∀ node ∈ nodes.tail, changed.prev node = links.prev node) :
    nodes.IsChain (Linked changed) := by
  induction chain with
  | nil =>
      exact List.isChain_nil
  | singleton node =>
      exact List.isChain_singleton node
  | cons_cons linked _ inductionHypothesis =>
      rw [List.dropLast_cons_cons, List.forall_mem_cons] at sameNext
      rw [List.tail_cons, List.forall_mem_cons] at samePrev
      refine List.isChain_cons_cons.mpr ⟨?_, ?_⟩
      · rw [Linked, sameNext.1, samePrev.1]
        exact linked
      · exact inductionHypothesis sameNext.2 samePrev.2

/-- The neighbours of the nodes of a chain are in the chain. -/
theorem neighbours_mem (chain : nodes.IsChain (Linked links)) :
    (∀ node ∈ nodes.dropLast, links.next node ∈ nodes.tail) ∧
      ∀ node ∈ nodes.tail, links.prev node ∈ nodes.dropLast := by
  induction chain with
  | nil =>
      simp
  | singleton node =>
      simp
  | cons_cons linked _ inductionHypothesis =>
      rw [List.dropLast_cons_cons, List.tail_cons, List.forall_mem_cons,
        List.forall_mem_cons, linked.1, linked.2]
      refine ⟨⟨List.mem_cons_self .., fun node member => ?_⟩,
        List.mem_cons_self .., fun node member => ?_⟩
      · exact List.mem_of_mem_tail (inductionHypothesis.1 node member)
      · exact List.mem_cons_of_mem _ (inductionHypothesis.2 node member)

/-- Around two nodes of a list without repetitions there are only others. -/
theorem ne_of_nodup
    {before after : List α} {first second : α}
    (distinct : (before ++ first :: second :: after).Nodup) :
    ∀ node, node ∈ before ∨ node ∈ after → node ≠ first ∧ node ≠ second := by
  rw [List.nodup_append, List.nodup_cons, List.nodup_cons] at distinct
  obtain ⟨_, ⟨notFirst, notSecond, _⟩, apart⟩ := distinct
  rintro node (inBefore | inAfter)
  · exact ⟨apart node inBefore first (by simp), apart node inBefore second (by simp)⟩
  · refine ⟨?_, ?_⟩
    · rintro rfl
      exact notFirst (List.mem_cons_of_mem _ inAfter)
    · rintro rfl
      exact notSecond inAfter

/-- A walk starts at its first node. -/
theorem Visits.first
    {node stop : α}
    (visits : Visits links stop node nodes) :
    node = nodes.headD stop := by
  cases nodes with
  | nil => exact visits
  | cons first rest => exact visits.1

/-- A walk goes on to the node behind. -/
theorem Visits.next_eq
    {node stop : α}
    {passed rest : List α}
    (visits : Visits links stop node (passed ++ new :: rest)) :
    links.next new = rest.headD stop := by
  induction passed generalizing node with
  | nil =>
      obtain ⟨rfl, visitsRest⟩ := visits
      exact visitsRest.first
  | cons first passed inductionHypothesis =>
      exact inductionHypothesis visits.2

/-- A walk comes nearer to the end of the list. -/
theorem CircularList.idxOf_lt
    [DecidableEq α]
    {passed rest : List α}
    (list : CircularList links head (passed ++ new :: rest)) :
    (passed ++ new :: rest).length -
        (passed ++ new :: rest).idxOf (rest.headD head) <
      (passed ++ new :: rest).length - (passed ++ new :: rest).idxOf new := by
  have distinct := list.distinct
  have notPassed : new ∉ passed := fun member =>
    (List.nodup_append.mp distinct).2.2 new member new (List.mem_cons_self ..) rfl
  have here : (passed ++ new :: rest).idxOf new = passed.length := by
    rw [List.idxOf_append_of_notMem notPassed, List.idxOf_cons_self, Nat.add_zero]
  have behind : passed.length < (passed ++ new :: rest).idxOf (rest.headD head) := by
    cases rest with
    | nil =>
        rw [List.headD_nil, List.idxOf_of_notMem list.apart, List.length_append]
        exact Nat.lt_add_of_pos_right (Nat.succ_pos _)
    | cons next rest =>
        have split : passed ++ new :: next :: rest =
            (passed ++ [new]) ++ next :: rest := by
          simp
        rw [split] at distinct
        have notBefore : next ∉ passed ++ [new] := fun member =>
          (List.nodup_append.mp distinct).2.2 next member next
            (List.mem_cons_self ..) rfl
        rw [List.headD_cons, split, List.idxOf_append_of_notMem notBefore,
          List.idxOf_cons_self, List.length_append, List.length_singleton]
        exact Nat.lt_succ_self _
  have inside : passed.length < (passed ++ new :: rest).length := by simp
  omega

namespace CircularList

/-! ## Neighbours -/

theorem next_mem
    (list : CircularList links head nodes)
    {node : α}
    (member : node ∈ head :: nodes) :
    links.next node ∈ head :: nodes := by
  have behind := (neighbours_mem (circularList_iff.mp list).2).1
  rw [← List.cons_append, List.dropLast_concat, List.cons_append,
    List.tail_cons] at behind
  exact (List.perm_append_singleton ..).mem_iff.mp (behind node member)

theorem prev_mem
    (list : CircularList links head nodes)
    {node : α}
    (member : node ∈ head :: nodes) :
    links.prev node ∈ head :: nodes := by
  have front := (neighbours_mem (circularList_iff.mp list).2).2
  rw [← List.cons_append, List.dropLast_concat, List.cons_append,
    List.tail_cons] at front
  exact front node ((List.perm_append_singleton ..).mem_iff.mpr member)

/-- A list is empty when its head is linked to itself. -/
theorem next_eq_head_iff (list : CircularList links head nodes) :
    links.next head = head ↔ nodes = [] := by
  have visits := list.visits
  cases nodes with
  | nil =>
      exact iff_of_true visits rfl
  | cons first rest =>
      have apart := list.apart
      rw [visits.1]
      refine iff_of_false ?_ (List.cons_ne_nil first rest)
      rintro rfl
      exact apart (List.mem_cons_self ..)

/-! ## Changes -/

/-- A list depends on the links of its head and its nodes only. -/
theorem congr
    (list : CircularList links head nodes)
    (sameNext : ∀ node ∈ head :: nodes, changed.next node = links.next node)
    (samePrev : ∀ node ∈ head :: nodes, changed.prev node = links.prev node) :
    CircularList changed head nodes := by
  obtain ⟨distinct, chain⟩ := circularList_iff.mp list
  refine circularList_iff.mpr ⟨distinct, isChain_congr chain ?_ ?_⟩
  · rw [← List.cons_append, List.dropLast_concat]
    exact sameNext
  · intro node member
    rw [List.tail_cons] at member
    exact samePrev node ((List.perm_append_singleton ..).mem_iff.mp member)

/-- One node more, behind the head. -/
theorem insert
    (list : CircularList links head nodes)
    (notHead : new ≠ head)
    (fresh : new ∉ nodes)
    (headNext : changed.next head = new)
    (newPrev : changed.prev new = head)
    (newNext : changed.next new = links.next head)
    (firstPrev : changed.prev (links.next head) = new)
    (sameNext : ∀ node ∈ nodes, changed.next node = links.next node)
    (samePrev : ∀ node ∈ head :: nodes, node ≠ links.next head →
      changed.prev node = links.prev node) :
    CircularList changed head (new :: nodes) := by
  obtain ⟨distinct, chain⟩ := circularList_iff.mp list
  refine circularList_iff.mpr ⟨?_, ?_⟩
  · refine (List.Perm.swap head new nodes).nodup_iff.mp ?_
    exact List.nodup_cons.mpr ⟨by simp [notHead, fresh], distinct⟩
  rw [List.cons_append, List.isChain_cons_cons]
  refine ⟨⟨headNext, newPrev⟩, ?_⟩
  cases nodes with
  | nil =>
      have only : links.next head = head := list.visits
      rw [only] at newNext firstPrev
      exact List.isChain_pair.mpr ⟨newNext, firstPrev⟩
  | cons first rest =>
      have firstIs : links.next head = first := list.visits.1
      rw [firstIs] at newNext firstPrev samePrev
      rw [List.cons_append, List.isChain_cons_cons] at chain ⊢
      refine ⟨⟨newNext, firstPrev⟩, isChain_congr chain.2 ?_ ?_⟩
      · rw [← List.cons_append, List.dropLast_concat]
        exact sameNext
      · intro node member
        rw [List.tail_cons, List.mem_append, List.mem_singleton] at member
        rcases member with inRest | rfl
        · refine samePrev node (by simp [inRest]) ?_
          rintro rfl
          exact (List.nodup_cons.mp list.distinct).1 inRest
        · refine samePrev node (List.mem_cons_self ..) ?_
          rintro rfl
          exact list.apart (List.mem_cons_self ..)

/-- A node of a list lies between two others; one of them may be the head. -/
theorem exists_neighbours
    (list : CircularList links head nodes)
    (member : entry ∈ nodes) :
    ∃ before after front behind,
      nodes = before ++ entry :: after ∧
      (∃ earlier, head :: before = earlier ++ [front]) ∧
      (∃ later, after ++ [head] = behind :: later) ∧
      (head :: before).IsChain (Linked links) ∧
      Linked links front entry ∧ Linked links entry behind ∧
      (after ++ [head]).IsChain (Linked links) := by
  obtain ⟨_, chain⟩ := circularList_iff.mp list
  obtain ⟨before, after, rfl⟩ := List.append_of_mem member
  obtain ⟨earlier, front, frontIs⟩ :
      ∃ earlier front, head :: before = earlier ++ [front] :=
    ⟨_, _, (List.dropLast_append_getLast (List.cons_ne_nil head before)).symm⟩
  obtain ⟨behind, later, behindIs⟩ :
      ∃ behind later, after ++ [head] = behind :: later :=
    List.exists_cons_of_ne_nil (by simp)
  refine ⟨before, after, front, behind, rfl, ⟨earlier, frontIs⟩,
    ⟨later, behindIs⟩, ?_⟩
  rw [List.append_assoc, List.cons_append, ← List.cons_append, frontIs,
    behindIs, List.append_assoc, List.singleton_append,
    List.isChain_append_cons_cons, List.isChain_cons_cons] at chain
  rw [frontIs, behindIs]
  exact chain

/-- A node of a list is not its own neighbour. -/
theorem neighbours_ne
    (list : CircularList links head nodes)
    (member : entry ∈ nodes) :
    links.next entry ≠ entry ∧ links.prev entry ≠ entry := by
  obtain ⟨before, after, front, behind, rfl, ⟨earlier, frontIs⟩, _, _,
    fromFront, _⟩ := list.exists_neighbours member
  have notInFront : links.prev entry ≠ entry := by
    rw [fromFront.2]
    rintro rfl
    have inFront : front ∈ head :: before := by simp [frontIs]
    rcases List.mem_cons.mp inFront with rfl | inBefore
    · exact list.apart member
    · exact (List.nodup_append.mp list.distinct).2.2 front inBefore front
        (List.mem_cons_self ..) rfl
  refine ⟨fun same => notInFront ?_, notInFront⟩
  have back := list.back entry (List.mem_cons_of_mem _ member)
  rwa [same] at back

/-- One node less. -/
theorem remove [DecidableEq α]
    (list : CircularList links head nodes)
    (member : entry ∈ nodes)
    (frontNext : changed.next (links.prev entry) = links.next entry)
    (behindPrev : changed.prev (links.next entry) = links.prev entry)
    (sameNext : ∀ node ∈ head :: nodes, node ≠ links.prev entry →
      node ≠ entry → changed.next node = links.next node)
    (samePrev : ∀ node ∈ head :: nodes, node ≠ links.next entry →
      node ≠ entry → changed.prev node = links.prev node) :
    CircularList changed head (nodes.erase entry) := by
  have distinct := (circularList_iff.mp list).1
  obtain ⟨before, after, front, behind, rfl, ⟨earlier, frontIs⟩,
    ⟨later, behindIs⟩, chainBefore, fromFront, toBehind, chainAfter⟩ :=
    list.exists_neighbours member
  rw [fromFront.2, toBehind.1] at frontNext behindPrev
  rw [fromFront.2] at sameNext
  rw [toBehind.1] at samePrev
  -- the nodes as the ones that are left and as the ones that are reached
  have left : head :: (before ++ entry :: after) =
      earlier ++ front :: entry :: after := by
    rw [← List.cons_append, frontIs, List.append_assoc, List.singleton_append]
  have reached : before ++ entry :: after ++ [head] =
      before ++ entry :: behind :: later := by
    rw [List.append_assoc, List.cons_append, behindIs]
  have rotated : (before ++ entry :: after ++ [head]).Perm
      (head :: (before ++ entry :: after)) :=
    List.perm_append_singleton ..
  have distinctReached := rotated.nodup_iff.mpr distinct
  have apartLeft := ne_of_nodup (left ▸ distinct)
  have apartReached := ne_of_nodup (reached ▸ distinctReached)
  have shorter : (head :: (before ++ after)).Nodup :=
    distinct.sublist (((List.sublist_cons_self entry after).append_left
      before).cons_cons head)
  have notBefore : entry ∉ before := fun inBefore =>
    (apartReached entry (Or.inl inBefore)).1 rfl
  rw [List.erase_append_right _ notBefore, List.erase_cons_head,
    circularList_iff]
  refine ⟨shorter, ?_⟩
  rw [List.append_assoc, ← List.cons_append, frontIs, behindIs,
    List.append_assoc, List.singleton_append, List.isChain_append_cons_cons,
    ← frontIs, ← behindIs]
  refine ⟨isChain_congr chainBefore ?_ ?_, ⟨frontNext, behindPrev⟩,
    isChain_congr chainAfter ?_ ?_⟩
  · intro node inEarlier
    rw [frontIs, List.dropLast_concat] at inEarlier
    obtain ⟨notFront, notEntry⟩ := apartLeft node (Or.inl inEarlier)
    exact sameNext node (by simp [left, inEarlier]) notFront notEntry
  · intro node inBefore
    rw [List.tail_cons] at inBefore
    obtain ⟨notEntry, notBehind⟩ := apartReached node (Or.inl inBefore)
    exact samePrev node (by simp [inBefore]) notBehind notEntry
  · intro node inAfter
    rw [List.dropLast_concat] at inAfter
    obtain ⟨notFront, notEntry⟩ := apartLeft node (Or.inr inAfter)
    exact sameNext node (by simp [inAfter]) notFront notEntry
  · intro node inLater
    rw [behindIs, List.tail_cons] at inLater
    obtain ⟨notEntry, notBehind⟩ := apartReached node (Or.inr inLater)
    have isNode : node ∈ head :: (before ++ entry :: after) :=
      rotated.mem_iff.mp (by simp [reached, inLater])
    exact samePrev node isNode notBehind notEntry

end CircularList

end Chains

end MatrixOS.CircularLists
