import MatrixOS.BootTables
import MatrixOS.KmallocRuns
import MatrixOS.Process
import MatrixOS.TempWindows

namespace MatrixOS

open ByteMemory Paging

/-!
# The kernel at boot

The state in which `boot_mm_init` and `process_init` leave the tables of the
kernel, over the page tables of the loader.
-/

/--
The kernel over the page tables of the loader: `pmm_init` has been given the
region of `boot_config.h`, the mappings and the processes are initialised.
-/
def bootKernel
    (mem : Memory) (pageDirectory : Nat) (modules : List ModuleInfo) :
    KernelState where
  mem := loaderTables mem pageDirectory
  cr3 := pageDirectory
  buddySys := Kmalloc.bootSys
  tempMgr := tempMappingInit
  modules := modules
  processes := fun _ => Pcb.clear
  currentProcess := none
  nextPid := 1

@[simp] theorem bootKernel_cr3
    (mem : Memory) (pageDirectory : Nat) (modules : List ModuleInfo) :
    (bootKernel mem pageDirectory modules).cr3 = pageDirectory :=
  rfl

section Loader

variable (mem : Memory) {pageDirectory : Nat}
variable (aligned : 2 ^ 12 ∣ pageDirectory)
variable (inRange : pageDirectory + 34 * 4096 ≤ 2 ^ 32)
include aligned inRange

/-- The loader enters the tables that the mapping functions rely on. -/
theorem kernelPaging_loaderTables :
    KernelPaging (loaderTables mem pageDirectory) pageDirectory pageDirectory
      (firstPageTable pageDirectory) := by
  have first : firstPageTable pageDirectory = pageDirectory + 4096 := rfl
  have self : PointsTo (loaderTables mem pageDirectory) pageDirectory 1023
      pageDirectory := by
    have entry := kernelEntry aligned
    rw [PointsTo, entryAt_loaderTables_dir mem aligned inRange (by decide),
      bootDirectoryEntry, if_pos rfl]
    exact ⟨entry.1, entry.2.2.2⟩
  have windows : PointsTo (loaderTables mem pageDirectory) pageDirectory 768
      (firstPageTable pageDirectory) := by
    have entry := kernelEntry
      (show 2 ^ 12 ∣ firstPageTable pageDirectory + (768 - 768) * 4096 by
        omega)
    have low : ¬ (768 < pageTableCount) := by decide
    have high : 768 ≤ 768 ∧ 768 < 768 + pageTableCount := by decide
    rw [PointsTo, entryAt_loaderTables_dir mem aligned inRange (by decide),
      bootDirectoryEntry, if_neg (by decide), if_neg (by decide), if_neg low,
      if_pos high]
    exact ⟨entry.1, entry.2.2.2⟩
  exact ⟨self, self, windows, windows⟩

end Loader

end MatrixOS
