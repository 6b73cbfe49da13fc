import MatrixOS.CircularLists
import MatrixOS.Fuel

namespace MatrixOS

open CircularLists Fuel

/-!
# `include/list.h`

A `struct list_head` has two pointers.  The memory holds these two words for
every address, so the struct of a head and those of its nodes are of one kind.
The assignments are made one after another: each reads what the ones before it
have left.
-/

/-- The words `next` and `prev` of the `struct list_head` at each address. -/
abbrev ListMemory := Links Nat

/-- `list_init`. -/
def listInit (mem : ListMemory) (head : Nat) : ListMemory :=
  let mem := mem.setNext head head
  mem.setPrev head head

/-- `list_add`. -/
def listAdd (mem : ListMemory) (new head : Nat) : ListMemory :=
  let mem := mem.setNext new (mem.next head)
  let mem := mem.setPrev new head
  let mem := mem.setPrev (mem.next head) new
  mem.setNext head new

/-- `list_del`. -/
def listDel (mem : ListMemory) (entry : Nat) : ListMemory :=
  let mem := mem.setPrev (mem.next entry) (mem.prev entry)
  let mem := mem.setNext (mem.prev entry) (mem.next entry)
  let mem := mem.setPrev entry 0
  mem.setNext entry 0

/-- `list_empty`. -/
def listEmpty (mem : ListMemory) (head : Nat) : Bool :=
  mem.next head = head

/-- The loop of `list_for_each` from a position on. -/
def listForEachFrom {α : Type} (mem : ListMemory) (head : Nat)
    (body : α → Nat → α) : (fuel pos : Nat) → α → Option α
  | 0, _, _ => none
  | fuel + 1, pos, state =>
      if pos ≠ head then
        listForEachFrom mem head body fuel (mem.next pos) (body state pos)
      else
        some state

/-- `list_for_each` with a body that leaves the links alone. -/
def listForEach {α : Type} (mem : ListMemory) (head : Nat)
    (body : α → Nat → α) (fuel : Nat) (state : α) : Option α :=
  listForEachFrom mem head body fuel (mem.next head) state

section

variable {mem : ListMemory} {head other new entry : Nat}
variable {nodes otherNodes : List Nat}

/-! ## One list -/

theorem listInit_circularList (mem : ListMemory) (head : Nat) :
    CircularList (listInit mem head) head [] where
  distinct := List.nodup_nil
  apart := List.not_mem_nil
  visits := by simp [listInit, Visits]
  back := by simp [listInit]

theorem listAdd_circularList
    (list : CircularList mem head nodes)
    (notHead : new ≠ head)
    (fresh : new ∉ nodes) :
    CircularList (listAdd mem new head) head (new :: nodes) := by
  have notFirst : new ≠ mem.next head := by
    intro isFirst
    have first := list.next_mem (List.mem_cons_self ..)
    rw [← isFirst, List.mem_cons] at first
    exact first.elim notHead fresh
  refine list.insert notHead fresh ?_ ?_ ?_ ?_ ?_ ?_
  · simp [listAdd]
  · simp [listAdd, notHead.symm, notFirst]
  · simp [listAdd, notHead]
  · simp [listAdd, notHead.symm]
  · intro node member
    have notNew : node ≠ new := fun same => fresh (same ▸ member)
    have isNode : node ≠ head := fun same => list.apart (same ▸ member)
    simp [listAdd, notNew, isNode]
  · intro node member behind
    have notNew : node ≠ new := by
      rintro rfl
      exact (List.mem_cons.mp member).elim notHead fresh
    simp [listAdd, notHead.symm, notNew, behind]

theorem listDel_circularList
    (list : CircularList mem head nodes)
    (member : entry ∈ nodes) :
    CircularList (listDel mem entry) head (nodes.erase entry) := by
  obtain ⟨notBehind, notFront⟩ := list.neighbours_ne member
  refine list.remove member ?_ ?_ ?_ ?_
  · simp [listDel, notFront, notBehind.symm]
  · simp [listDel, notBehind]
  · intro node _ different isEntry
    simp [listDel, notBehind.symm, different, isEntry]
  · intro node _ different isEntry
    simp [listDel, different, isEntry]

theorem listEmpty_iff (list : CircularList mem head nodes) :
    listEmpty mem head ↔ nodes = [] := by
  rw [← list.next_eq_head_iff, listEmpty, decide_eq_true_eq]

/-- The loop ends and has called its body for every node in order. -/
theorem listForEachFrom_returns
    {α : Type} {body : α → Nat → α} {pos : Nat}
    (visits : Visits mem head pos nodes)
    (apart : head ∉ nodes)
    (state : α) :
    Returns (fun fuel => listForEachFrom mem head body fuel pos state)
      (nodes.foldl body state) := by
  induction nodes generalizing pos state with
  | nil =>
      obtain rfl : pos = head := visits
      refine returns_succ_iff.mp ?_
      simp only [listForEachFrom, ne_eq, not_true_eq_false, if_false]
      exact returns_some _
  | cons first rest inductionHypothesis =>
      obtain ⟨rfl, visitsRest⟩ := visits
      rw [List.mem_cons, not_or] at apart
      refine returns_succ_iff.mp ?_
      simp only [listForEachFrom, ne_eq, Ne.symm apart.1, not_false_eq_true,
        if_true]
      exact inductionHypothesis visitsRest apart.2 _

/-! ## Several lists -/

/-- `list_add` writes into the new node, the head and the first node only. -/
theorem listAdd_other
    (list : CircularList mem head nodes)
    (otherList : CircularList mem other otherNodes)
    (separate : (head :: nodes).Disjoint (other :: otherNodes))
    (fresh : new ∉ other :: otherNodes) :
    CircularList (listAdd mem new head) other otherNodes := by
  have first := list.next_mem (List.mem_cons_self ..)
  have read : Function.update mem.next new (mem.next head) head =
      mem.next head := by
    by_cases same : head = new <;> simp [same]
  refine otherList.congr ?_ ?_
  · intro node member
    have notNew : node ≠ new := fun same => fresh (same ▸ member)
    have notHead : node ≠ head := fun same =>
      separate (List.mem_cons_self ..) (same ▸ member)
    simp [listAdd, notNew, notHead]
  · intro node member
    have notNew : node ≠ new := fun same => fresh (same ▸ member)
    have notFirst : node ≠ mem.next head := fun same =>
      separate first (same ▸ member)
    simp [listAdd, read, notNew, notFirst]

/-- `list_del` writes into the node and its neighbours only. -/
theorem listDel_other
    (list : CircularList mem head nodes)
    (otherList : CircularList mem other otherNodes)
    (separate : (head :: nodes).Disjoint (other :: otherNodes))
    (member : entry ∈ nodes) :
    CircularList (listDel mem entry) other otherNodes := by
  have isMember := List.mem_cons_of_mem head member
  have notBehind := (list.neighbours_ne member).1
  have apart : ∀ node ∈ other :: otherNodes,
      node ≠ entry ∧ node ≠ mem.next entry ∧ node ≠ mem.prev entry :=
    fun node inOther =>
      ⟨fun same => separate isMember (same ▸ inOther),
        fun same => separate (list.next_mem isMember) (same ▸ inOther),
        fun same => separate (list.prev_mem isMember) (same ▸ inOther)⟩
  refine otherList.congr ?_ ?_
  · intro node inOther
    obtain ⟨notEntry, _, notFront⟩ := apart node inOther
    simp [listDel, notBehind.symm, notEntry, notFront]
  · intro node inOther
    obtain ⟨notEntry, notNext, _⟩ := apart node inOther
    simp [listDel, notEntry, notNext]

/-- Lists that share neither heads nor nodes. -/
structure SeparateLists {ι : Type} (mem : ListMemory) (heads : ι → Nat)
    (sequences : ι → List Nat) (indices : Set ι) : Prop where
  lists : ∀ index ∈ indices,
    CircularList mem (heads index) (sequences index)
  separate : ∀ first ∈ indices, ∀ second ∈ indices, first ≠ second →
    (heads first :: sequences first).Disjoint
      (heads second :: sequences second)

namespace SeparateLists

variable {ι : Type} [DecidableEq ι]
variable {heads : ι → Nat} {sequences : ι → List Nat} {indices : Set ι}
variable {index : ι}

theorem listAdd
    (all : SeparateLists mem heads sequences indices)
    (listed : index ∈ indices)
    (fresh : ∀ other ∈ indices, new ∉ heads other :: sequences other) :
    SeparateLists (MatrixOS.listAdd mem new (heads index)) heads
      (Function.update sequences index (new :: sequences index)) indices where
  lists := by
    intro other otherListed
    have list := all.lists index listed
    have notOwn := fresh index listed
    rw [List.mem_cons, not_or] at notOwn
    by_cases same : other = index
    · rw [same, Function.update_self]
      exact listAdd_circularList list notOwn.1 notOwn.2
    · rw [Function.update_of_ne same]
      exact listAdd_other list (all.lists other otherListed)
        (all.separate index listed other otherListed (Ne.symm same))
        (fresh other otherListed)
  separate := by
    have apart : ∀ other ∈ indices, other ≠ index →
        (heads index :: new :: sequences index).Disjoint
          (heads other :: sequences other) := by
      intro other otherListed different
      have old := all.separate index listed other otherListed different.symm
      rw [List.disjoint_cons_left] at old
      rw [List.disjoint_cons_left, List.disjoint_cons_left]
      exact ⟨old.1, fresh other otherListed, old.2⟩
    intro first firstListed second secondListed different
    by_cases isFirst : first = index
    · subst isFirst
      rw [Function.update_self, Function.update_of_ne different.symm]
      exact apart second secondListed different.symm
    by_cases isSecond : second = index
    · subst isSecond
      rw [Function.update_self, Function.update_of_ne different]
      exact List.disjoint_symm (apart first firstListed different)
    · rw [Function.update_of_ne isFirst, Function.update_of_ne isSecond]
      exact all.separate first firstListed second secondListed different

theorem listDel
    (all : SeparateLists mem heads sequences indices)
    (listed : index ∈ indices)
    (member : entry ∈ sequences index) :
    SeparateLists (MatrixOS.listDel mem entry) heads
      (Function.update sequences index ((sequences index).erase entry))
      indices where
  lists := by
    intro other otherListed
    have list := all.lists index listed
    by_cases same : other = index
    · rw [same, Function.update_self]
      exact listDel_circularList list member
    · rw [Function.update_of_ne same]
      exact listDel_other list (all.lists other otherListed)
        (all.separate index listed other otherListed (Ne.symm same)) member
  separate := by
    have fewer : ∀ other,
        heads other ::
            Function.update sequences index ((sequences index).erase entry) other ⊆
          heads other :: sequences other := by
      intro other
      by_cases same : other = index
      · rw [same, Function.update_self]
        exact List.cons_subset_cons _ List.erase_subset
      · rw [Function.update_of_ne same]
        exact List.Subset.refl _
    intro first firstListed second secondListed different node inFirst inSecond
    exact all.separate first firstListed second secondListed different
      (fewer first inFirst) (fewer second inSecond)

end SeparateLists

/--
A head with its nodes implements their sequence: an addition puts a node in
front, a removal takes its node out, the list is empty with the sequence, a
loop visits the sequence in order, and no list that shares neither head nor
nodes with this one is affected.
-/
theorem intrusiveList_sequence
    (list : CircularList mem head nodes) :
    (∀ new, new ≠ head → new ∉ nodes →
      CircularList (listAdd mem new head) head (new :: nodes)) ∧
    (∀ entry ∈ nodes,
      CircularList (listDel mem entry) head (nodes.erase entry)) ∧
    (listEmpty mem head ↔ nodes = []) ∧
    (∀ {α : Type} (body : α → Nat → α) (state : α),
      Returns (fun fuel => listForEach mem head body fuel state)
        (nodes.foldl body state)) ∧
    ∀ other otherNodes, CircularList mem other otherNodes →
      (head :: nodes).Disjoint (other :: otherNodes) →
      (∀ new, new ≠ head → new ∉ nodes → new ∉ other :: otherNodes →
        CircularList (listAdd mem new head) other otherNodes) ∧
      ∀ entry ∈ nodes, CircularList (listDel mem entry) other otherNodes :=
  ⟨fun _ => listAdd_circularList list, fun _ => listDel_circularList list,
    listEmpty_iff list,
    fun _ => listForEachFrom_returns list.visits list.apart,
    fun _ _ otherList separate =>
      ⟨fun _ _ _ => listAdd_other list otherList separate,
        fun _ => listDel_other list otherList separate⟩⟩

end

/-- Two nodes behind the head at 100. -/
def demoList : ListMemory :=
  listAdd (listAdd (listInit ⟨id, id⟩ 100) 8 100) 16 100

theorem demoList_circularList : CircularList demoList 100 [16, 8] :=
  listAdd_circularList
    (listAdd_circularList (listInit_circularList _ 100) (by decide) (by decide))
    (by decide) (by decide)

theorem intrusiveList_sequence_demo :
    Returns
      (fun fuel => listForEach demoList 100 (fun visited pos => visited ++ [pos])
        fuel [])
      [16, 8] :=
  (intrusiveList_sequence demoList_circularList).2.2.2.1
    (fun visited pos => visited ++ [pos]) []

end MatrixOS
