import MatrixOS.TempMapping

namespace MatrixOS

/-!
# User address spaces

`kernel/mm/vmm.c` builds the page directory of a process, its two page tables
and its code and stack pages.  Every page is reached through a temporary
mapping.
-/

/-- `page_dir[i] = kernel_page_dir[i]` for `i = 768, …, 768 + count - 1`. -/
def copyKernelEntries (pageDir : Nat) : (count : Nat) → Kernel Unit
  | 0 => pure ()
  | count + 1 => do
      copyKernelEntries pageDir count
      let entry ← load32 (0xFFFFF000 + (768 + count) * 4)
      store32 (pageDir + (768 + count) * 4) entry

/-- `vmm_create_user_space`. -/
def vmmCreateUserSpace : Kernel Nat := do
  let userPageDir ← pmmAllocPages 0
  if userPageDir = 0 then
    return 0
  let tempMapping ← tempMapPage userPageDir
  memset virtualAccess tempMapping 0 pageSize
  copyKernelEntries tempMapping (1024 - 768)
  tempUnmapPage tempMapping
  return userPageDir

/-- `vmm_destroy_user_space`. -/
def vmmDestroyUserSpace (pageDir : Nat) : Kernel Unit := do
  if pageDir = 0 then
    return
  pmmFreePages pageDir 0

/--
One mapping of `vmm_load_user_program`: enter a page table into the directory,
clear the table and enter a page into it.
-/
def setMapping
    (pageDirPtr dirIndex pageTable tabIndex page : Nat) : Kernel Unit := do
  store32 (pageDirPtr + dirIndex * 4) (pageTable ||| 0x07)
  let tempTable ← tempMapPage pageTable
  memset virtualAccess tempTable 0 pageSize
  store32 (tempTable + tabIndex * 4) (page ||| 0x07)
  tempUnmapPage tempTable

/-- The copy of the binary at the end of `vmm_load_user_program`. -/
def copyUserProgram (binaryPhys userCodePage size : Nat) : Kernel Unit := do
  let tempSrc ← tempMapPage binaryPhys
  let tempDst ← tempMapPage userCodePage
  memcpy virtualAccess tempDst tempSrc size
  tempUnmapPage tempSrc
  tempUnmapPage tempDst

/-- `vmm_load_user_program`: 1 for success. -/
def vmmLoadUserProgram (pageDir binaryPhys size : Nat) : Kernel Nat := do
  let userCodePage ← pmmAllocPages 0
  if userCodePage = 0 then
    return 0
  let userStackPage ← pmmAllocPages 0
  if userStackPage = 0 then
    pmmFreePages userCodePage 0
    return 0
  let tempPageDir ← tempMapPage pageDir
  let codePageTable ← pmmAllocPages 0
  if codePageTable = 0 then
    tempUnmapPage tempPageDir
    pmmFreePages userCodePage 0
    pmmFreePages userStackPage 0
    return 0
  let stackPageTable ← pmmAllocPages 0
  if stackPageTable = 0 then
    tempUnmapPage tempPageDir
    pmmFreePages userCodePage 0
    pmmFreePages userStackPage 0
    pmmFreePages codePageTable 0
    return 0
  setMapping tempPageDir 0 codePageTable 0 userCodePage
  setMapping tempPageDir 0x3FE stackPageTable 0x3FF userStackPage
  tempUnmapPage tempPageDir
  copyUserProgram binaryPhys userCodePage size
  return 1

end MatrixOS
