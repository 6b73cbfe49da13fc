import Mathlib.Algebra.BigOperators.Intervals
import MatrixOS.SequentialReads

namespace MatrixOS

open ByteMemory

/-!
# What stat reports

A path that `vfs_stat` knows can be opened, and the reads of the descriptor end
after as many bytes as it reports.
-/

/-! ## Paths -/

section Paths

variable {state : VfsState} {path : List UInt8} {fs : Filesystem}

/-- A file system knows the paths that may be read. -/
theorem FileOperations.stat_eq_zero_iff (ops : FileOperations) (stat : Nat) :
    (ops.stat path stat state).1 = 0 ↔ ops.Permits path oRdonly state := by
  cases ops with
  | ramfsOps =>
      simp only [FileOperations.stat, ramfsStat, FileOperations.Permits]
      cases found : ramfsFindFile path state with
      | none =>
          exact iff_of_false (show enoent ≠ 0 by decide) (by simp)
      | some index =>
          exact iff_of_true rfl ⟨index, rfl, fun writes => writes.1 rfl⟩
  | devfsOps =>
      simp only [FileOperations.stat, devfsStat, FileOperations.Permits]
      split
      · rename_i noDevice
        exact iff_of_false (show enoent ≠ 0 by decide) (not_not.mpr noDevice)
      · rename_i isDevice
        exact iff_of_true rfl isDevice

/-- A path that may not be opened is refused. -/
theorem FileOperations.permits_of_open
    {ops : FileOperations} {flags : Nat}
    (opened : 0 ≤ (ops.open path flags state).1) :
    ops.Permits path flags state := by
  cases ops with
  | ramfsOps =>
      simp only [FileOperations.open, ramfsOpen] at opened
      split at opened
      · exact absurd opened (show ¬ 0 ≤ enoent by decide)
      · rename_i file found
        split at opened
        · exact absurd opened (show ¬ 0 ≤ eacces by decide)
        · rename_i allowed
          exact ⟨file, found, allowed⟩
  | devfsOps =>
      simp only [FileOperations.open, devfsOpen] at opened
      split at opened
      · exact absurd opened (show ¬ 0 ≤ enoent by decide)
      · rename_i isDevice
        exact isDevice

/-- A descriptor behind the standard ones is free. -/
def VfsState.HasFreeFd (state : VfsState) : Prop :=
  ∃ fd, 3 ≤ fd ∧ fd < maxOpenFiles ∧ (state.openFiles fd).refCount = 0

theorem VfsState.HasFreeFd.find
    (free : state.HasFreeFd) :
    ∃ fd, findFreeFd state = some fd := by
  obtain ⟨fd, behind, inTable, unused⟩ := free
  apply Option.isSome_iff_exists.mp
  rw [findFreeFd, List.find?_isSome]
  refine ⟨fd, List.mem_range'_1.mpr ⟨behind, ?_⟩, by simpa using unused⟩
  rw [maxOpenFiles] at inTable ⊢
  omega

/-- With a free descriptor a path is opened when its file system permits it. -/
theorem TablesAgree.vfsOpen_nonneg_iff
    (tables : TablesAgree state)
    (free : state.HasFreeFd)
    (resolved : vfsResolveFs path state = some fs)
    (flags : Nat) :
    0 ≤ (MatrixOS.vfsOpen (some path) flags state).1 ↔
      fs.ops.Permits path flags state := by
  obtain ⟨fd, found⟩ := free.find
  simp only [MatrixOS.vfsOpen, resolved, found]
  constructor
  · intro opened
    apply FileOperations.permits_of_open
    by_contra failed
    rw [if_pos (Int.not_le.mp failed)] at opened
    exact failed opened
  · intro permits
    have done := tables.open_of_permits found permits
    rw [if_neg (Int.not_lt.mpr done)]
    exact Int.natCast_nonneg fd

/-- `vfs_stat` knows the paths that can be opened for reading. -/
theorem TablesAgree.vfsStat_eq_zero_iff
    (tables : TablesAgree state)
    (free : state.HasFreeFd)
    {stat : Nat}
    (nonnull : stat ≠ 0)
    (path : List UInt8) :
    (vfsStat (some path) stat state).1 = 0 ↔
      0 ≤ (MatrixOS.vfsOpen (some path) oRdonly state).1 := by
  cases resolved : vfsResolveFs path state with
  | none =>
      simp only [vfsStat, if_neg nonnull, MatrixOS.vfsOpen, resolved]
      exact iff_of_false (show enoent ≠ 0 by decide)
        (show ¬ 0 ≤ enoent by decide)
  | some fs =>
      rw [tables.vfsOpen_nonneg_iff free resolved]
      simp only [vfsStat, if_neg nonnull, resolved]
      exact fs.ops.stat_eq_zero_iff stat

/-- The size is the first field of a `struct file_stat`. -/
theorem load_storeStat
    {size : Nat}
    (word : size < 2 ^ 32)
    (mem : Memory)
    (stat mode type inode : Nat) :
    load (storeStat mem stat size mode type inode) 4 stat = size := by
  rw [storeStat, load_store_of_disjoint (Or.inl (by omega)),
    load_store_of_disjoint (Or.inl (by omega)),
    load_store_of_disjoint (Or.inl (by omega)), load_store]
  exact Nat.mod_eq_of_lt word

/-- The size that `vfs_stat` reports of a file. -/
theorem load_vfsStat
    {index stat : Nat}
    (resolved : vfsResolveFs path state = some fs)
    (isRamfs : fs.ops = .ramfsOps)
    (found : ramfsFindFile path state = some index)
    (word : (state.fileAt index).size < 2 ^ 32)
    (nonnull : stat ≠ 0) :
    load (vfsStat (some path) stat state).2.mem 4 stat =
      (state.fileAt index).size := by
  simp only [vfsStat, if_neg nonnull, resolved, isRamfs, FileOperations.stat,
    ramfsStat, found]
  exact load_storeStat word _ _ _ _ _

end Paths

/-! ## Reading to the end -/

/-- The state after reads of a descriptor, the i-th of `count i` bytes. -/
def readsAfter (fd : Int) (buf count : Nat → Nat) :
    (calls : Nat) → VfsState → VfsState
  | 0, state => state
  | calls + 1, state =>
      (vfsRead fd (buf calls) (count calls)
        (readsAfter fd buf count calls state)).2

/-- What the i-th of these reads returns. -/
def readResult
    (fd : Int) (buf count : Nat → Nat) (i : Nat) (state : VfsState) : Int :=
  (vfsRead fd (buf i) (count i) (readsAfter fd buf count i state)).1

/--
After finitely many reads that return something there is one that returns 0,
and the results before it add up to the size.
-/
def ReadsToEnd
    (fd : Int) (buf count : Nat → Nat) (size : Nat) (state : VfsState) : Prop :=
  ∃ calls, (∀ i < calls, 0 < readResult fd buf count i state) ∧
    readResult fd buf count calls state = 0 ∧
    ∑ i ∈ Finset.range calls, readResult fd buf count i state = size

section Reads

variable {state : VfsState} {fd handle index pos : Nat} {file : RamfsFile}
variable {content : List UInt8} {buf count : Nat → Nat}

theorem readsAfter_succ (fd : Int) (calls : Nat) (state : VfsState) :
    readsAfter fd buf count (calls + 1) state =
      readsAfter fd (fun i => buf (i + 1)) (fun i => count (i + 1)) calls
        (vfsRead fd (buf 0) (count 0) state).2 := by
  induction calls with
  | zero =>
      rfl
  | succ calls inductionHypothesis =>
      rw [readsAfter, inductionHypothesis]
      rfl

theorem readResult_succ (fd : Int) (i : Nat) (state : VfsState) :
    readResult fd buf count (i + 1) state =
      readResult fd (fun i => buf (i + 1)) (fun i => count (i + 1)) i
        (vfsRead fd (buf 0) (count 0) state).2 := by
  rw [readResult, readsAfter_succ]
  rfl

/-- A read that returns something comes before those that read the rest. -/
theorem ReadsToEnd.cons
    {fd : Int} {first rest : Nat}
    (returned : (vfsRead fd (buf 0) (count 0) state).1 = first)
    (positive : 0 < first)
    (reads : ReadsToEnd fd (fun i => buf (i + 1)) (fun i => count (i + 1)) rest
      (vfsRead fd (buf 0) (count 0) state).2) :
    ReadsToEnd fd buf count (first + rest) state := by
  obtain ⟨calls, before, last, sum⟩ := reads
  have head : readResult fd buf count 0 state = first := returned
  refine ⟨calls + 1, fun i below => ?_, ?_, ?_⟩
  · cases i with
    | zero =>
        rw [head]
        exact Int.natCast_pos.mpr positive
    | succ i =>
        rw [readResult_succ]
        exact before i (by omega)
  · rw [readResult_succ]
    exact last
  · rw [Finset.sum_range_succ', head]
    simp only [readResult_succ, sum]
    omega

/-- What is left of the file gets less with every read. -/
theorem Reading.readsToEnd
    (reading : Reading state fd handle index pos file content)
    (size : file.size < 2 ^ 31)
    (counts : ∀ i, 0 < count i ∧ count i < 2 ^ 31) :
    ReadsToEnd fd buf count (file.size - pos) state := by
  induction isLeft : file.size - pos using Nat.strong_induction_on
    generalizing state pos content buf count with
  | _ left inductionHypothesis =>
      obtain ⟨positive, small⟩ := counts 0
      obtain ⟨returned, next⟩ := reading.advances size small (buf 0)
      rw [isLeft] at returned
      by_cases atEnd : left = 0
      · refine ⟨0, fun i below => absurd below (Nat.not_lt_zero i), ?_, ?_⟩
        · change (vfsRead fd (buf 0) (count 0) state).1 = 0
          rw [returned, atEnd, Nat.min_zero]
          rfl
        · rw [Finset.range_zero, Finset.sum_empty, atEnd]
          rfl
      · have rest : ReadsToEnd fd (fun i => buf (i + 1)) (fun i => count (i + 1))
            (left - min (count 0) left)
            (vfsRead fd (buf 0) (count 0) state).2 :=
          inductionHypothesis _ (by omega) next (fun i => counts (i + 1))
            (by omega)
        have whole := ReadsToEnd.cons returned (by omega) rest
        rwa [Nat.add_sub_cancel' (Nat.min_le_right _ _)] at whole

end Reads

/--
In every state of a run with a free descriptor `vfs_stat` knows a path exactly
when it can be opened for reading, and a file is read to its end after as many
bytes as `vfs_stat` reports.
-/
theorem statOpenRead
    {modules : List ModuleInfo} {ramfsNode devfsNode : Nat}
    {before : VfsState} {run : VfsRun}
    (reached : VfsReachable
      (bootVfsInit modules ramfsNode devfsNode before) run)
    (free : run.state.HasFreeFd)
    (path : List UInt8)
    {stat : Nat}
    (nonnull : stat ≠ 0) :
    ((vfsStat (some path) stat run.state).1 = 0 ↔
      0 ≤ (vfsOpen (some path) oRdonly run.state).1) ∧
    ∀ fs index,
      vfsResolveFs path run.state = some fs →
      fs.ops = .ramfsOps →
      ramfsFindFile path run.state = some index →
      (run.state.fileAt index).size < 2 ^ 31 →
        ∀ buf count : Nat → Nat, (∀ i, 0 < count i ∧ count i < 2 ^ 31) →
          ReadsToEnd (vfsOpen (some path) oRdonly run.state).1 buf count
            (load (vfsStat (some path) stat run.state).2.mem 4 stat)
            (vfsOpen (some path) oRdonly run.state).2 := by
  have invariant := reached.invariant
    (vfsInvariant_bootVfsInit modules ramfsNode devfsNode before)
  refine ⟨invariant.tables.vfsStat_eq_zero_iff free nonnull path, ?_⟩
  intro fs index resolved isRamfs found size buf count counts
  have elsewhere : ¬ UnderDev path := by
    intro underDev
    have isDevfs := vfsResolveFs_ops invariant.known resolved
    rw [if_pos underDev, isRamfs] at isDevfs
    cases isDevfs
  have permitted : fs.ops.Permits path oRdonly run.state := by
    rw [isRamfs]
    exact ⟨index, found, fun writes => writes.1 rfl⟩
  have opened :=
    (invariant.tables.vfsOpen_nonneg_iff free resolved oRdonly).mpr permitted
  obtain ⟨fd, isFd⟩ := Int.eq_ofNat_of_zero_le opened
  obtain ⟨handle, reading⟩ :=
    reading_vfsOpen invariant elsewhere found isFd
  rw [load_vfsStat resolved isRamfs found (by omega) nonnull, isFd]
  exact reading.readsToEnd size counts

/-- A file of 16 bytes is read five bytes at a time. -/
theorem statOpenRead_five :
    ∃ state : VfsState, (vfsStat (some (cstr "a")) 0x5000 state).1 = 0 ∧
      0 ≤ (vfsOpen (some (cstr "a")) oRdonly state).1 ∧
      ReadsToEnd (vfsOpen (some (cstr "a")) oRdonly state).1
        (fun _ => 0x2000) (fun _ => 5) 16
        (vfsOpen (some (cstr "a")) oRdonly state).2 := by
  have atBoot : VfsReachable
      (bootVfsInit [⟨cstr "a", 0x1000, 16⟩] 16 32 .cleared) _ := .init
  have free : VfsState.HasFreeFd
      (bootVfsInit [⟨cstr "a", 0x1000, 16⟩] 16 32 .cleared) :=
    ⟨3, by decide, by decide, rfl⟩
  have nonnull : 0x5000 ≠ 0 := by decide
  have agree := statOpenRead atBoot free (cstr "a") nonnull
  have reads := agree.2 ⟨cstr "ramfs", .ramfsOps⟩ 0 rfl rfl rfl (by decide)
    (fun _ => 0x2000) (fun _ => 5) (fun _ => ⟨by decide, by decide⟩)
  exact ⟨_, rfl, agree.1.mp rfl, reads⟩

end MatrixOS
