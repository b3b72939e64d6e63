import KaushOS.Library.PhysicalMemory
import KaushOS.Mm.Frames

/-! # Page directories and page tables (`kern/mm/mm.c`)

The routines that map, share and copy pages, with the page directories and page tables where they
are: in frames of the memory, as words that are read and written through the loaded directory.

* **`MMPTE`** — an entry, a word with bit fields.
* **`State`** — the memory, the loaded page directory and the PFN database.
* **`miInsertPage`, `miRemovePage`** — one page; **`mmMapSegment`, `mmVirtualAlloc`,
  `mmVirtualFree`** — many pages.
* **`mmMapPageTemp`, `mmUnMapPageTemp`** — the window in which a frame is mapped for a while.
* **`mmCreateProcessAddressSpace`, `mmCloneProcessAddressSpace`, `mmDeleteProcessAddressSpace`** —
  whole address spaces.
* **`mmPfHandler`** — page faults.

`PageDirectory` is a kernel address in the source; here it is the number of the frame that the address
is mapped to, and `MM_PDE_ADDRESS` is the frame of the loaded directory. The processor sets bits
of its own in an entry (`Accessed`, `Dirty`), which nobody reads. The member `PteAddress` of a frame is
read by nobody either. A frame has at most one reference from each of the `2 ^ 26` entries in memory,
so that `RefCount` never gets near the bound of a `ULONG`. -/

namespace KaushOS.Paging

open PhysicalMemory

/-! ## The layout of the address space -/

/-- `PTSIZE`: what one entry of a page directory maps. -/
def PTSIZE : Nat := 0x400000

/-- `KERNBASE`. -/
def KERNBASE : Nat := 0x80000000

/-- `USERTOP`. -/
def USERTOP : Nat := 0x7FC00000

/-- `USERTEMP`. -/
def USERTEMP : Nat := 0x400000

/-- `USERTEMPEND`. -/
def USERTEMPEND : Nat := 0x800000

/-- `MMPAGETABLEAREA_START`. -/
def MMPAGETABLEAREA_START : Nat := 0xC0000000

/-- `NPTENTRIES`: the entries of a page table, and of a page directory. -/
def NPTENTRIES : Nat := 1024

/-- The entries of a page directory below `USERTOP`. -/
def userEntries : Nat := USERTOP / PTSIZE

/-- `PDX(la)`. -/
def PDX (la : Nat) : Nat := la / PTSIZE % NPTENTRIES

/-- `PTX(la)`. -/
def PTX (la : Nat) : Nat := la / PGSIZE % NPTENTRIES

/-- `ROUNDDOWN(a, n)`. -/
def roundDown (a n : Nat) : Nat := a - a % n

/-- `IsUserAddress(x)`. -/
def IsUserAddress (x : Nat) : Prop := x < USERTOP

instance (x : Nat) : Decidable (IsUserAddress x) := inferInstanceAs (Decidable (x < USERTOP))

/-- `MmGetPteAddress(x)`. -/
def mmGetPteAddress (x : Nat) : Nat := x / PGSIZE * 4 + MMPAGETABLEAREA_START

/-! ## Entries -/

/-- `PTE_U`. -/
def PTE_U : Nat := 4

/-- `MMPTE`: a word with bit fields. -/
structure MMPTE where
  Long : BitVec 32
  deriving DecidableEq

/-- `u.Hard.Valid`. -/
def MMPTE.Valid (p : MMPTE) : Bool := p.Long.getLsbD 0

/-- `u.Hard.Writable`. -/
def MMPTE.Writable (p : MMPTE) : Bool := p.Long.getLsbD 1

/-- `u.Hard.UserPriv`. -/
def MMPTE.UserPriv (p : MMPTE) : Bool := p.Long.getLsbD 2

/-- `u.Hard.CopyOnWrite`. -/
def MMPTE.CopyOnWrite (p : MMPTE) : Bool := p.Long.getLsbD 11

/-- `u.Hard.PageFrameNumber`. -/
def MMPTE.PageFrameNumber (p : MMPTE) : Nat := p.Long.toNat / 4096

/-- Store to one bit. -/
def MMPTE.setBit (p : MMPTE) (i : Nat) (b : Bool) : MMPTE :=
  ⟨if b then p.Long ||| BitVec.twoPow 32 i else p.Long &&& ~~~BitVec.twoPow 32 i⟩

/-- `u.Hard.Writable = b`. -/
def MMPTE.setWritable (p : MMPTE) (b : Bool) : MMPTE := p.setBit 1 b

/-- `u.Hard.CopyOnWrite = b`. -/
def MMPTE.setCopyOnWrite (p : MMPTE) (b : Bool) : MMPTE := p.setBit 11 b

/-- `MiPFNtoPhysicalAddress(pPfn) | Perm | PTE_P`. -/
def MMPTE.make (frame perm : Nat) : MMPTE := ⟨BitVec.ofNat 32 (frame <<< 12 ||| (perm ||| PTE_P))⟩

/-! ## The state -/

/-- `KSTATUS`, as far as the routines below return it. -/
inductive KSTATUS
  | STATUS_SUCCESS
  | STATUS_NO_MEMORY
  deriving DecidableEq, Repr

/-- **The memory, the frame of the loaded page directory, and the PFN database.** -/
structure State where
  ram : Ram
  cr3 : Nat
  PfnFreeList : List Nat
  RefCount : Nat → Nat

/-- The entry with the index `i` of the page table or page directory in a frame. -/
def State.entry (s : State) (frame i : Nat) : MMPTE := ⟨word s.ram frame i⟩

/-- Store to an entry. -/
def State.setEntry (s : State) (frame i : Nat) (p : MMPTE) : State :=
  { s with ram := storeWord s.ram frame i p.Long }

/-- `memset` of a whole frame to 0. -/
def State.clearFrame (s : State) (frame : Nat) : State := { s with ram := clear s.ram frame }

/-- `memcpy` of a whole frame. -/
def State.copyFrame (s : State) (frame source : Nat) : State :=
  { s with ram := copy s.ram frame source }

/-- `*MmGetPdeAddress(Address)`, through the entry of the loaded directory that holds the directory
itself. -/
def State.pde (s : State) (address : Nat) : MMPTE := s.entry s.cr3 (PDX address)

/-- `*MmGetPteAddress(Address)`. -/
def State.pte (s : State) (address : Nat) : MMPTE :=
  s.entry (s.pde address).PageFrameNumber (PTX address)

/-- Store to `*MmGetPteAddress(Address)`. -/
def State.setPte (s : State) (address : Nat) (p : MMPTE) : State :=
  s.setEntry (s.pde address).PageFrameNumber (PTX address) p

/-- The frame of `MmGetPhysicalAddress(Address)`. -/
def State.physical (s : State) (address : Nat) : Nat := (s.pte address).PageFrameNumber

/-! ## The PFN database -/

/-- `MmAllocatePFN(pfn, PteAddress)`; `none` is `STATUS_NO_MEMORY`. -/
def mmAllocatePFN (s : State) : Option Nat × State :=
  match s.PfnFreeList with
  | [] => (none, s)
  | pfn :: rest => (some pfn, { s with PfnFreeList := rest })

/-- `MiFreePFN(pfn)`. -/
def miFreePFN (pfn : Nat) (s : State) : Kernel State := do
  assert (s.RefCount pfn = 0) "pfn->RefCount == 0"
  return { s with PfnFreeList := pfn :: s.PfnFreeList }

/-- `MiIncReferencePFN(x)`. -/
def miIncReferencePFN (pfn : Nat) (s : State) : State :=
  { s with RefCount := Function.update s.RefCount pfn (s.RefCount pfn + 1) }

/-- `MiDecReferencePFN(pfn)`. -/
def miDecReferencePFN (pfn : Nat) (s : State) : Kernel State :=
  let count := if s.RefCount pfn = 0 then ULONG_VALUES - 1 else s.RefCount pfn - 1
  let s := { s with RefCount := Function.update s.RefCount pfn count }
  if count = 0 then miFreePFN pfn s else .ok s

/-! ## One page -/

/-- `MiRemovePage(PageDirectory, Address)`. -/
def miRemovePage (pageDirectory address : Nat) (s : State) : Kernel State := do
  assert (address % PGSIZE = 0) "IsPageAlignedAddress(Address)"
  if pageDirectory ≠ s.cr3 ∧ IsUserAddress address then
    keBugCheck "MiRemovePage: Removing User Page for other process context\n"
  else if (s.pde address).Valid = false ∨ (s.pte address).Valid = false then
    keBugCheck "Trying to remove an unmapped page\n"
  else do
    let pte := s.pte address
    let s ← miDecReferencePFN pte.PageFrameNumber s
    return s.setPte address ⟨0⟩

/-- `MiInsertPage`, the page table: if there is none, one is allocated and cleared. -/
def insertPageTable (pageDirectory address : Nat) (s : State) : Kernel (KSTATUS × State) :=
  if (s.pde address).Valid then .ok (.STATUS_SUCCESS, s)
  else do
    assert (IsUserAddress address) "IsUserAddress(Address)"
    match mmAllocatePFN s with
    | (none, s) => return (.STATUS_NO_MEMORY, s)
    | (some pfn, s) =>
      let s := miIncReferencePFN pfn s
      let perm := if IsUserAddress address then PTE_W ||| PTE_U else PTE_W
      let s := s.setEntry pageDirectory (PDX address) (.make pfn perm)
      return (.STATUS_SUCCESS, s.clearFrame (s.pde address).PageFrameNumber)

/-- `MiInsertPage`, the page: a frame is mapped, and one that was mapped there is removed. -/
def insertFrame (pageDirectory address pfn perm : Nat) (s : State) : Kernel State :=
  if (s.pte address).PageFrameNumber = pfn then .ok s
  else do
    let s ← if (s.pte address).Long ≠ 0 then miRemovePage pageDirectory address s else .ok s
    return miIncReferencePFN pfn (s.setPte address (.make pfn perm))

/-- `MiInsertPage(PageDirectory, Address, pPfn, Perm)`; every caller has a frame. -/
def miInsertPage (pageDirectory address pfn perm : Nat) (s : State) : Kernel (KSTATUS × State) :=
  if pageDirectory ≠ s.cr3 ∧ IsUserAddress address then
    keBugCheck "MmInsertPage: Inserting User Page for other process context\n"
  else do
    let (status, s) ← insertPageTable pageDirectory address s
    match status with
    | .STATUS_NO_MEMORY => return (.STATUS_NO_MEMORY, s)
    | .STATUS_SUCCESS => do
      let s ← insertFrame pageDirectory address pfn perm s
      return (.STATUS_SUCCESS, s)

/-! ## Many pages -/

/-- The loop of `MmMapSegment`. -/
def mapSegmentLoop (pageDirectory perm : Nat) : Nat → Nat → State → Kernel State
  | 0, _, s => .ok s
  | n + 1, vAddr, s =>
    match mmAllocatePFN s with
    | (none, _) => keBugCheck "page allocation Failed\n"
    | (some pfn, s) => do
      let (status, s) ← miInsertPage pageDirectory vAddr pfn perm s
      match status with
      | .STATUS_NO_MEMORY => keBugCheck "MiInsertPage Failed\n"
      | .STATUS_SUCCESS => mapSegmentLoop pageDirectory perm n (vAddr + PGSIZE) s

/-- `MmMapSegment(PageDirectory, Address, Length, Perm)`, which returns `STATUS_SUCCESS` if it
returns. -/
def mmMapSegment (pageDirectory address length perm : Nat) (s : State) : Kernel State :=
  let vaStart := roundDown address PGSIZE
  let vaEnd := roundUp (ulongAdd address length) PGSIZE
  mapSegmentLoop pageDirectory perm ((vaEnd - vaStart) / PGSIZE) vaStart s

/-- The loop of `MmVirtualFree`. -/
def virtualFreeLoop : Nat → Nat → State → Kernel State
  | 0, _, s => .ok s
  | n + 1, address, s => do
    let s ← miRemovePage s.cr3 address s
    virtualFreeLoop n (ulongAdd address PGSIZE) s

/-- `MmVirtualFree(VirtualAddress, size)`. -/
def mmVirtualFree (address size : Nat) (s : State) : Kernel State :=
  virtualFreeLoop (roundUp size PGSIZE / PGSIZE) address s

/-- The loop of `MmVirtualAlloc`; the assertions are about the status of `MmAllocatePFN` and of
`MiInsertPage`. -/
def virtualAllocLoop (perm : Nat) : Nat → Nat → State → Kernel State
  | 0, _, s => .ok s
  | n + 1, address, s =>
    match mmAllocatePFN s with
    | (none, _) => .error (.assertion "success(status)")
    | (some pfn, s) => do
      let (status, s) ← miInsertPage s.cr3 address pfn (perm ||| PTE_P) s
      match status with
      | .STATUS_NO_MEMORY => .error (.assertion "0")
      | .STATUS_SUCCESS => virtualAllocLoop perm n (ulongAdd address PGSIZE) s

/-- `MmVirtualAlloc(VirtualAddress, size, perm)`, which returns `STATUS_SUCCESS` if it returns. -/
def mmVirtualAlloc (address size perm : Nat) (s : State) : Kernel State :=
  virtualAllocLoop perm (roundUp size PGSIZE / PGSIZE) address s

/-! ## The window -/

/-- The loop of `MmMapPageTemp`. -/
def mapPageTempLoop (page : Nat) : Nat → Nat → State → Kernel (Option Nat × State)
  | 0, _, s => .ok (none, s)
  | n + 1, vAddr, s =>
    if (s.pte vAddr).Valid then mapPageTempLoop page n (vAddr + PGSIZE) s
    else do
      let (status, s) ← miInsertPage s.cr3 vAddr page PTE_W s
      match status with
      | .STATUS_NO_MEMORY => return (none, s)
      | .STATUS_SUCCESS => return (some vAddr, s)

/-- `MmMapPageTemp(Page)`: the address at which the frame is mapped; `none` is `NULL`. -/
def mmMapPageTemp (page : Nat) (s : State) : Kernel (Option Nat × State) :=
  if (s.pde USERTEMP).Valid then
    mapPageTempLoop page ((USERTEMPEND - USERTEMP) / PGSIZE) USERTEMP s
  else do
    let (status, s) ← miInsertPage s.cr3 USERTEMP page PTE_W s
    match status with
    | .STATUS_NO_MEMORY => return (none, s)
    | .STATUS_SUCCESS => return (some USERTEMP, s)

/-- `MmUnMapPageTemp(VAddr, Page)`. -/
def mmUnMapPageTemp (vAddr page : Nat) (s : State) : Kernel State := do
  assert (vAddr ≥ USERTEMP) "VAddr >= (PVOID)USERTEMP"
  assert (vAddr < USERTEMPEND) "VAddr < (PVOID)USERTEMPEND"
  let s ← miRemovePage s.cr3 vAddr s
  assert (s.RefCount page ≠ 0) "Page->RefCount != 0"
  return s

/-! ## Address spaces -/

/-- `MmAttachToAddressSpace(PageDirectory)`. -/
def mmAttachToAddressSpace (pageDirectory : Nat) (s : State) : State := { s with cr3 := pageDirectory }

/-- `MmCreateProcessAddressSpace(PageDirectory)` for the page at `page` that `MmAllocateSystemPtes(1)`
finds free; `globalPgdir` is the frame of `GlobalPgdir`. -/
def mmCreateProcessAddressSpace (globalPgdir page : Nat) (s : State) : Kernel State := do
  let s ← mmVirtualAlloc page PGSIZE PTE_W s
  let directory := s.physical page
  let s := s.copyFrame directory globalPgdir
  return s.setEntry directory (PDX MMPAGETABLEAREA_START) (.make directory PTE_W)

/-- `MmDeleteProcessAddressSpace`, the inner loop: the pages of one page table are removed. -/
def deletePagesLoop (pageDirectory : Nat) : Nat → Nat → State → Kernel State
  | 0, _, s => .ok s
  | n + 1, pageAddress, s => do
    let s ← if (s.pte pageAddress).Valid then miRemovePage pageDirectory pageAddress s else .ok s
    deletePagesLoop pageDirectory n (pageAddress + PGSIZE) s

/-- `MmDeleteProcessAddressSpace`, the body of the outer loop: a page table goes with its pages. -/
def deleteTable (pageDirectory dirAddress : Nat) (s : State) : Kernel State := do
  assert ((s.entry pageDirectory (PDX dirAddress)).Long = (s.pde dirAddress).Long)
    "TestPde[PDX(DirAddress)].u.Long == Pde->u.Long"
  if (s.pde dirAddress).Valid then do
    let s ← deletePagesLoop pageDirectory NPTENTRIES dirAddress s
    miRemovePage pageDirectory (mmGetPteAddress dirAddress) s
  else do
    assert ((s.entry pageDirectory (PDX dirAddress)).Long = 0)
      "TestPde[PDX(DirAddress)].u.Long == 0"
    return s

/-- `MmDeleteProcessAddressSpace`, the outer loop. -/
def deleteLoop (pageDirectory : Nat) : Nat → Nat → State → Kernel State
  | 0, _, s => .ok s
  | n + 1, dirAddress, s => do
    let s ← deleteTable pageDirectory dirAddress s
    deleteLoop pageDirectory n (dirAddress + PTSIZE) s

/-- `MmDeleteProcessAddressSpace(PageDirectory)` for the directory that is mapped at `page`. -/
def mmDeleteProcessAddressSpace (page : Nat) (s : State) : Kernel State := do
  let oldCr3 := s.cr3
  let pageDirectory := s.physical page
  assert (pageDirectory ≠ s.cr3) "!IsCurrentPageDirectory(PageDirectory)"
  let s := mmAttachToAddressSpace pageDirectory s
  let s ← deleteLoop pageDirectory userEntries 0 s
  let s := mmAttachToAddressSpace oldCr3 s
  mmVirtualFree page PGSIZE s

/-- Store to an entry of the page table that is mapped at `address` in the window. -/
def State.storeThrough (s : State) (address i : Nat) (p : MMPTE) : State :=
  s.setEntry (s.pte address).PageFrameNumber i p

/-- `MmCloneProcessAddressSpace`, the body of the inner loop: a page is shared. -/
def sharePage (tempPageAddr pageAddress : Nat) (s : State) : Kernel State :=
  let clonePte := s.pte pageAddress
  if clonePte.Valid then
    let s := miIncReferencePFN clonePte.PageFrameNumber s
    if clonePte.CopyOnWrite then do
      assert (clonePte.Writable = false) "ClonePte->u.Hard.Writable == 0"
      return s.storeThrough tempPageAddr (PTX pageAddress) clonePte
    else if clonePte.Writable then
      let s := s.setPte pageAddress ((clonePte.setWritable false).setCopyOnWrite true)
      .ok (s.storeThrough tempPageAddr (PTX pageAddress) (s.pte pageAddress))
    else .ok (s.storeThrough tempPageAddr (PTX pageAddress) clonePte)
  else .ok s

/-- `MmCloneProcessAddressSpace`, the inner loop. -/
def sharePagesLoop (tempPageAddr : Nat) : Nat → Nat → State → Kernel State
  | 0, _, s => .ok s
  | n + 1, pageAddress, s => do
    let s ← sharePage tempPageAddr pageAddress s
    sharePagesLoop tempPageAddr n (pageAddress + PGSIZE) s

/-- `MmCloneProcessAddressSpace`, the body of the outer loop: a page table is copied. -/
def cloneTable (clonePageDirectory newPageDirectory dirAddress : Nat) (s : State) :
    Kernel (KSTATUS × State) := do
  assert ((s.entry clonePageDirectory (PDX dirAddress)).Long = (s.pde dirAddress).Long)
    "CloneTestPde[PDX(DirAddress)].u.Long == ClonePde->u.Long"
  assert ((s.entry newPageDirectory (PDX dirAddress)).Long = 0)
    "NewTestPde[PDX(DirAddress)].u.Long == 0"
  if (s.pde dirAddress).Valid then
    match mmAllocatePFN s with
    | (none, s) => return (.STATUS_NO_MEMORY, s)
    | (some newPfn, s) => do
      let s := miIncReferencePFN newPfn s
      let s := s.setEntry newPageDirectory (PDX dirAddress) (.make newPfn (PTE_W ||| PTE_U))
      let (tempPageAddr, s) ← mmMapPageTemp newPfn s
      match tempPageAddr with
      | none => .error (.assertion "0")
      | some tempPageAddr => do
        let s := s.clearFrame (s.pte tempPageAddr).PageFrameNumber
        let s ← sharePagesLoop tempPageAddr NPTENTRIES dirAddress s
        let s ← mmUnMapPageTemp tempPageAddr newPfn s
        return (.STATUS_SUCCESS, s)
  else return (.STATUS_SUCCESS, s)

/-- `MmCloneProcessAddressSpace`, the outer loop. -/
def cloneLoop (clonePageDirectory newPageDirectory : Nat) :
    Nat → Nat → State → Kernel (KSTATUS × State)
  | 0, _, s => .ok (.STATUS_SUCCESS, s)
  | n + 1, dirAddress, s => do
    let (status, s) ← cloneTable clonePageDirectory newPageDirectory dirAddress s
    match status with
    | .STATUS_NO_MEMORY => return (.STATUS_NO_MEMORY, s)
    | .STATUS_SUCCESS => cloneLoop clonePageDirectory newPageDirectory n (dirAddress + PTSIZE) s

/-- `MmCloneProcessAddressSpace(ClonePageDirectory, NewPageDirectory)`. -/
def mmCloneProcessAddressSpace (clonePageDirectory newPageDirectory : Nat) (s : State) :
    Kernel (KSTATUS × State) := do
  assert (newPageDirectory ≠ s.cr3) "!IsCurrentPageDirectory(NewPageDirectory)"
  assert (clonePageDirectory = s.cr3) "IsCurrentPageDirectory(ClonePageDirectory)"
  cloneLoop clonePageDirectory newPageDirectory userEntries 0 s

/-! ## Page faults -/

/-- `MmPfHandler`, the page at `pageAddress` is shared: it gets a frame of its own with the same
contents. -/
def breakSharing (pageAddress pfn : Nat) (s : State) : Kernel State := do
  let s := miIncReferencePFN pfn s
  let s ← miRemovePage s.cr3 pageAddress s
  let (virtualAddress, s) ← mmMapPageTemp pfn s
  match virtualAddress with
  | none => keBugCheck "Failed to Handle Page Fault 0x%x Faulting Page: 0x%x\n"
  | some virtualAddress => do
    let s ← mmMapSegment s.cr3 pageAddress PGSIZE (PTE_U ||| PTE_W) s
    let s := s.copyFrame (s.pte pageAddress).PageFrameNumber (s.pte virtualAddress).PageFrameNumber
    let s ← mmUnMapPageTemp virtualAddress pfn s
    miDecReferencePFN pfn s

/-- `MmPfHandler(FaultAddress, TrapFrame)`. -/
def mmPfHandler (faultAddress : Nat) (s : State) : Kernel State :=
  if ¬ IsUserAddress faultAddress then keBugCheck "Kernel PageFault: 0x%x\n"
  else if (s.pde faultAddress).Valid = false then
    keBugCheck "Invalid PDE  0x%x Faulting Page: 0x%x\n"
  else if (s.pte faultAddress).Valid = false then
    keBugCheck "Invalid PTE  0x%x Faulting Page: 0x%x\n"
  else if (s.pte faultAddress).CopyOnWrite = false then
    keBugCheck "Not COW PTE  0x%x Faulting Page: 0x%x\n"
  else do
    let pageAddress := roundDown faultAddress PGSIZE
    let pfn := (s.pte faultAddress).PageFrameNumber
    assert (s.RefCount pfn ≠ 0) "MiGetRefCount(Pfn) != 0"
    assert ((s.pte faultAddress).Writable = false) "Pte->u.Hard.Writable == 0"
    if s.RefCount pfn = 1 then
      let s := s.setPte faultAddress ((s.pte faultAddress).setCopyOnWrite false)
      return s.setPte faultAddress ((s.pte faultAddress).setWritable true)
    else breakSharing pageAddress pfn s

end KaushOS.Paging
