import Mathlib.Order.Interval.Finset.Nat
import MatrixOS.AddressSpace
import MatrixOS.Boot

namespace MatrixOS

open ByteMemory Paging

/-!
# The memory manager at boot

The page frames that are free after `boot_mm_init`, and the ones that are not.
-/

section Allocator

theorem boot_regionPages : Pmm.regionPages 0x01000000 0x02000000 = 4096 := by
  norm_num [Pmm.regionPages, pageSize]

theorem boot_firstBlock :
    Pmm.firstBlock 0x01000000 0x02000000 = 0x1800000 := by
  norm_num [Pmm.firstBlock, Pmm.bitmapSize, boot_regionPages]

/-- The two blocks of `pmm_init`; the second one lies behind the region. -/
theorem mem_bootSys_freeBlocks (block : Pmm.PageBlock) :
    block ∈ Kmalloc.bootSys.freeBlocks ↔
      block.order = Pmm.maxOrder ∧
        (block.addr = 0x1800000 ∨ block.addr = 0x2000000) := by
  rw [Kmalloc.bootSys, Pmm.mem_pmmInit Pmm.bss (by norm_num [pageSize])
    (by norm_num) (by norm_num), boot_regionPages, boot_firstBlock]
  refine and_congr_right fun _ => ?_
  constructor
  · rintro ⟨position, below, addr⟩
    rw [addr, wrap32_of_lt (by omega)]
    omega
  · rintro (addr | addr)
    · exact ⟨0, by omega, by rw [addr]; norm_num [wrap32]⟩
    · exact ⟨1, by omega, by rw [addr]; norm_num [wrap32]⟩

theorem mem_bootSys_freePages {page : Nat} :
    page ∈ Kmalloc.bootSys.freePages ↔ 0x1800 ≤ page ∧ page < 0x2800 := by
  have length : 2 ^ Pmm.maxOrder = 2048 := rfl
  constructor
  · rintro ⟨block, member, first, last⟩
    obtain ⟨order, addr | addr⟩ := (mem_bootSys_freeBlocks block).mp member
    all_goals
      rw [addr] at first last
      rw [order, length] at last
      simp only [pageSize] at first last
      omega
  · rintro ⟨lower, upper⟩
    rcases Nat.lt_or_ge page 0x2000 with inFirst | inSecond
    · refine ⟨⟨0x1800000, Pmm.maxOrder⟩,
        (mem_bootSys_freeBlocks _).mpr ⟨rfl, Or.inl rfl⟩, ?_, ?_⟩
      · simp only [pageSize]
        omega
      · simp only [pageSize, length]
        omega
    · refine ⟨⟨0x2000000, Pmm.maxOrder⟩,
        (mem_bootSys_freeBlocks _).mpr ⟨rfl, Or.inr rfl⟩, ?_, ?_⟩
      · simp only [pageSize]
        omega
      · simp only [pageSize, length]
        omega

theorem bootSys_ready : AllocatorReady Kmalloc.bootSys :=
  ⟨[], _, Pmm.pmmInit_invariant Pmm.bss (by norm_num) (by norm_num)
    (by norm_num)⟩

theorem bootSys_freeAtLeast : FreeAtLeast Kmalloc.bootSys 4096 :=
  ⟨Finset.Ico 0x1800 0x2800, by rw [Nat.card_Ico], fun page member =>
    mem_bootSys_freePages.mpr (Finset.mem_Ico.mp member)⟩

end Allocator

section Kernel

variable (mem : Memory) {pageDirectory : Nat} (modules : List ModuleInfo)
variable (aligned : 2 ^ 12 ∣ pageDirectory)
include aligned

theorem memoryReady_bootKernel
    (below : pageDirectory + 34 * 4096 ≤ 0x1800000) :
    MemoryReady (bootKernel mem pageDirectory modules) pageDirectory
      (firstPageTable pageDirectory) := by
  have first : firstPageTable pageDirectory = pageDirectory + 4096 := rfl
  have held : ∀ frame < 0x1800000, Held Kmalloc.bootSys frame := by
    intro frame low free
    have bounds := mem_bootSys_freePages.mp free
    simp only [pageSize] at bounds
    omega
  refine ⟨⟨?_, ?_, ?_, aligned, ?_⟩, bootSys_ready, held _ ?_, held _ ?_,
    held _ ?_⟩
  · exact kernelPaging_loaderTables mem aligned (by omega)
  · exact slots_tempMappingInit
  · intro slot _ frame impossible
    cases impossible
  · rw [bootKernel_cr3]
    omega
  · rw [bootKernel_cr3]
    omega
  · omega
  · omega

/-- A page below the free ones that is none of the two tables. -/
theorem reserved_bootKernel
    {frame : Nat}
    (frameAligned : 2 ^ 12 ∣ frame)
    (low : frame < 0x1800000)
    (apart : frame < pageDirectory ∨ pageDirectory + 2 * 4096 ≤ frame) :
    Reserved (bootKernel mem pageDirectory modules) pageDirectory
      (firstPageTable pageDirectory) frame := by
  have first : firstPageTable pageDirectory = pageDirectory + 4096 := rfl
  refine ⟨⟨frameAligned, ?_, by omega, by omega⟩, by omega, fun free => ?_⟩
  · rw [bootKernel_cr3]
    omega
  · have bounds := mem_bootSys_freePages.mp free
    simp only [pageSize] at bounds
    omega

end Kernel

/-! ## A kernel that has been booted -/

section Booted

variable (modules : List ModuleInfo)

theorem bootReady :
    MemoryReady (bootKernel (fun _ => 0) 0x110000 modules) 0x110000 0x111000 :=
  memoryReady_bootKernel _ modules (by omega) (by omega)

theorem bootFree :
    FreeAtLeast (bootKernel (fun _ => 0) 0x110000 modules).buddySys 4096 :=
  bootSys_freeAtLeast

theorem bootReserved
    (frame : Nat)
    (aligned : 2 ^ 12 ∣ frame)
    (low : frame < 0x1800000)
    (apart : 0x112000 ≤ frame) :
    Reserved (bootKernel (fun _ => 0) 0x110000 modules) 0x110000 0x111000
      frame :=
  reserved_bootKernel _ modules (by omega) aligned low (by omega)

/-- The page behind the windows is mapped to the first page frame. -/
theorem boot_behindWindows :
    PointsTo (bootKernel (fun _ => 0) 0x110000 modules).mem 0x110000 769
        0x131000 ∧
      PointsTo (bootKernel (fun _ => 0) 0x110000 modules).mem 0x131000 0 0 := by
  have aligned : 2 ^ 12 ∣ 0x110000 := by omega
  have dirEntry : entryAt (loaderTables (fun _ => 0) 0x110000) 0x110000 769 =
      0x131000 ||| 0x03 :=
    entryAt_loaderTables_dir (fun _ => 0) aligned (by omega) (by omega)
  have tableEntry : entryAt (loaderTables (fun _ => 0) 0x110000) 0x131000 0 =
      0 ||| 0x03 :=
    entryAt_loaderTables_temp (fun _ => 0) aligned (Agree.refl _) (by omega)
  have dirLeads := kernelEntry (show 2 ^ 12 ∣ 0x131000 by omega)
  have tableLeads := kernelEntry (show 2 ^ 12 ∣ 0 by omega)
  rw [← dirEntry] at dirLeads
  rw [← tableEntry] at tableLeads
  exact ⟨⟨dirLeads.1, dirLeads.2.2.2⟩, ⟨tableLeads.1, tableLeads.2.2.2⟩⟩

end Booted

end MatrixOS
