import Mathlib.Order.Interval.Finset.Nat
import KaushOS.Mm.PageRuns

/-! # The boot of the memory manager (`kern/mm/mm.c`)

`MiBootInitMemoryLayout` takes the first page directory and its page tables from the memory behind the
kernel's image, puts all frames that are left on the free list, and takes the other page tables of the
kernel half from there.

* **`Boot`** — the memory, and what has been handed out of it.
* **`miInitBootAlloc`, `miBootMapMemory`, `mmInitPFNDataBase`, `kernelTablesLoop`** — the parts, and
  **`miBootInitMemoryLayout`** — the whole.
* **`KernelHalf`** — the kernel half of all address spaces: the first 4 MB are mapped at `KERNBASE`.
* **`miBootInitMemoryLayout_booted`** — what the boot leaves is a memory as `Booted` says; **`boot_iff`**: when it
  returns.

Before paging is on, and after it because of the first page table, the address `KERNBASE + x` is the
physical address `x`. The PFN database itself and the bits of the system bitmap are data of the kernel,
which is not part of the model. -/

namespace KaushOS.Paging

/-! ## The layout of the memory -/

/-- `IOPHYSMEM`. -/
def IOPHYSMEM : Nat := 0x0A0000

/-- `EXTPHYSMEM`. -/
def EXTPHYSMEM : Nat := 0x100000

/-- `MAXPHYMEM`. -/
def MAXPHYMEM : Nat := 0x10000000

/-- `MM_PDE_ADDRESS`. -/
def MM_PDE_ADDRESS : Nat := 0xC0300000

/-- `MMNumberOfPhysicalPages`, as `x86CalcRam` sets it. -/
def mmNumberOfPhysicalPages : Nat := MAXPHYMEM / PGSIZE

/-- `sizeof(MMPFN)`: the address of an entry, the two of a list entry, and a count. -/
def sizeofMMPFN : Nat := 16

/-- `BmBitmapBufferSize(BitCount)`: the structure itself, and a bit for each bit. -/
def bmBitmapBufferSize (bitCount : Nat) : Nat := 8 + (bitCount + 31) / 32 * 4

/-- **The memory during the boot**, with the static variables: the addresses of what has been
allocated, and the next free byte. -/
structure Boot where
  state : State
  PtrToBootFreemem : Nat
  PfnDataBase : Nat
  GlobalPgdir : Nat
  MiSystemPteBitmap : Nat

/-- The frame of an address behind `KERNBASE`. -/
def bootFrame (va : Nat) : Nat := (va - KERNBASE) / PGSIZE

/-- `PhysicalAddress | Perm`. -/
def MMPTE.ofAddress (physicalAddress perm : Nat) : MMPTE :=
  ⟨BitVec.ofNat 32 (physicalAddress ||| perm)⟩

/-! ## The parts of the boot -/

/-- `MiBootVA2PA(VA)`. -/
def miBootVA2PA (va : Nat) : Kernel Nat :=
  if va < KERNBASE then keBugCheck "Invalid %08lx\n" else .ok (va - KERNBASE)

/-- `MiBootPA2VA(PA)`. -/
def miBootPA2VA (pa : Nat) : Kernel Nat :=
  if mmNumberOfPhysicalPages ≤ pa / PGSIZE then keBugCheck "Invalid PA %08lx"
  else .ok (pa + KERNBASE)

/-- `MiInitBootAlloc(NumBytes, align)`; `kernelEnd` is the address of the symbol `end`. -/
def miInitBootAlloc (kernelEnd numBytes align : Nat) (b : Boot) : Nat × Boot :=
  let free := if b.PtrToBootFreemem = 0 then kernelEnd else b.PtrToBootFreemem
  let virtAddress := roundUp free align
  (virtAddress, { b with PtrToBootFreemem := ulongAdd virtAddress numBytes })

/-- `MiBootMapMemory`, the inner loop. -/
def bootMapPages (pageTable perm : Nat) : Nat → Nat → Nat → State → State
  | 0, _, _, s => s
  | n + 1, address, phyAddress, s =>
    bootMapPages pageTable perm n (address + PGSIZE) (phyAddress + PGSIZE)
      (s.setEntry pageTable (PTX address) (.ofAddress phyAddress perm))

/-- `MiBootMapMemory`, the outer loop; page tables are not created here. -/
def bootMapTables (pgDir perm : Nat) : Nat → Nat → Nat → Nat → State → Kernel State
  | 0, _, _, _, s => .ok s
  | n + 1, address, size, phyAddress, s =>
    if (s.entry pgDir (PDX address)).Long = 0 then .error (.assertion "0")
    else do
      let pde := (s.entry pgDir (PDX address)).Long.toNat
      let pageTable ← miBootPA2VA (pde - pde % 0x400)
      let pages := (min size PTSIZE + (PGSIZE - 1)) / PGSIZE
      bootMapTables pgDir perm n (address + PTSIZE) (size - PTSIZE) (phyAddress + PTSIZE)
        (bootMapPages (bootFrame pageTable) perm pages address phyAddress s)

/-- `MiBootMapMemory(PgDir, Address, size, PhyAddress, Perm)`. -/
def miBootMapMemory (pgDir address size phyAddress perm : Nat) (s : State) : Kernel State := do
  assert (address % PGSIZE = 0) "IsPageAlignedAddress(Address)"
  assert (phyAddress % PGSIZE = 0) "IsPageAlignedAddress(PhyAddress)"
  bootMapTables (bootFrame pgDir) perm ((size + (PTSIZE - 1)) / PTSIZE) address size phyAddress s

/-- `MmInitializeSystemPtes()`. -/
def mmInitializeSystemPtes (kernelEnd : Nat) (b : Boot) : Boot :=
  let (buffer, b) := miInitBootAlloc kernelEnd (bmBitmapBufferSize systemPteCount) PGSIZE b
  { b with MiSystemPteBitmap := buffer }

/-- `MmInitPFNDataBase`, the loops that mark pages as in use. -/
def markInUse : Nat → Nat → State → State
  | 0, _, s => s
  | n + 1, pgCount, s =>
    markInUse n (pgCount + 1) { s with RefCount := Function.update s.RefCount pgCount 1 }

/-- `MmInitPFNDataBase`, the loop over the free pages. -/
def freePages : Nat → Nat → State → State
  | 0, _, s => s
  | n + 1, pgCount, s =>
    freePages n (pgCount + 1)
      { s with
        RefCount := Function.update s.RefCount pgCount 0
        PfnFreeList := s.PfnFreeList ++ [pgCount] }

/-- `MmInitPFNDataBase`, the pages below `EXTPHYSMEM`: the first one, the base memory and the hole for
the devices. -/
def markLowPages (s : State) : State :=
  let s := markInUse 1 0 s
  let s := markInUse (IOPHYSMEM / PGSIZE - 1) 1 s
  markInUse (EXTPHYSMEM / PGSIZE - IOPHYSMEM / PGSIZE) (IOPHYSMEM / PGSIZE) s

/-- `MmInitPFNDataBase()`. -/
def mmInitPFNDataBase (ptrToBootFreemem : Nat) (s : State) : Kernel State := do
  let s := markLowPages { s with PfnFreeList := [] }
  assert (ptrToBootFreemem < KERNBASE + PTSIZE)
    "(ULONG_PTR)PtrToBootFreemem < (KERNBASE + PTSIZE)"
  let used ← miBootVA2PA ptrToBootFreemem
  let s := markInUse (used / PGSIZE - EXTPHYSMEM / PGSIZE) (EXTPHYSMEM / PGSIZE) s
  return freePages (MAXPHYMEM / PGSIZE - used / PGSIZE) (used / PGSIZE) s

/-- `MiBootInitMemoryLayout`, the loop over the page tables of the kernel half. -/
def kernelTablesLoop (globalPgdir : Nat) : Nat → Nat → State → Kernel State
  | 0, _, s => .ok s
  | n + 1, counter, s =>
    if mmGetPteAddress counter = MM_PDE_ADDRESS then
      kernelTablesLoop globalPgdir n (counter + PTSIZE) s
    else
      match mmAllocatePFN s with
      | (none, _) => .error (.assertion "success(status)")
      | (some pfn, s) => do
        assert ((s.entry globalPgdir (PDX counter)).Long = 0) "GlobalPgdir[PDX(counter)].u.Long == 0"
        let s := s.setEntry globalPgdir (PDX counter) (.make pfn PTE_W)
        let s := s.clearFrame (s.pde counter).PageFrameNumber
        kernelTablesLoop globalPgdir n (counter + PTSIZE) s

/-- `MiBootInitMemoryLayout()` for a kernel whose image ends at `kernelEnd`. The loop at the end runs
until `counter` rolls over to 0. -/
def miBootInitMemoryLayout (kernelEnd : Nat) (s : State) : Kernel Boot := do
  let b : Boot := ⟨s, 0, 0, 0, 0⟩
  let (pfnDataBase, b) := miInitBootAlloc kernelEnd (sizeofMMPFN * mmNumberOfPhysicalPages) PGSIZE b
  let (globalPgdir, b) := miInitBootAlloc kernelEnd PGSIZE PGSIZE b
  let (firstPte, b) := miInitBootAlloc kernelEnd PGSIZE PGSIZE b
  let b := { b with PfnDataBase := pfnDataBase, GlobalPgdir := globalPgdir }
  let s := (b.state.clearFrame (bootFrame globalPgdir)).clearFrame (bootFrame firstPte)
  let firstPhysical ← miBootVA2PA firstPte
  let s := s.setEntry (bootFrame globalPgdir) (PDX KERNBASE) (.ofAddress firstPhysical (PTE_W ||| PTE_P))
  let s ← miBootMapMemory globalPgdir KERNBASE PTSIZE 0 (PTE_P ||| PTE_W) s
  let b := mmInitializeSystemPtes kernelEnd b
  let s ← mmInitPFNDataBase b.PtrToBootFreemem s
  let s := s.setEntry (bootFrame globalPgdir) 0 (s.entry (bootFrame globalPgdir) (PDX KERNBASE))
  let globalCr3 ← miBootVA2PA globalPgdir
  let s := mmAttachToAddressSpace (globalCr3 / PGSIZE) s
  let s := s.setEntry (bootFrame globalPgdir) 0 ⟨0⟩
  let s := s.setEntry (bootFrame globalPgdir) (PDX MMPAGETABLEAREA_START)
    (.ofAddress globalCr3 (PTE_W ||| PTE_P))
  let s ← kernelTablesLoop (bootFrame globalPgdir)
    ((ULONG_VALUES - (KERNBASE + PTSIZE)) / PTSIZE) (KERNBASE + PTSIZE) s
  return { b with state := s }

variable {s s' s₀ : State} {f first g i j k n p q x kernelEnd : Nat}

/-! ## Addresses and entries -/

/-- The address of a frame as an entry. -/
theorem MMPTE.ofAddress_make (f : Nat) :
    MMPTE.ofAddress (f * PGSIZE) (PTE_W ||| PTE_P) = .make f PTE_W := by
  rw [MMPTE.ofAddress, MMPTE.make, Nat.shiftLeft_eq]
  rfl

/-- An entry that is made is not 0. -/
theorem MMPTE.make_ne_zero (f perm : Nat) : (MMPTE.make f perm).Long ≠ 0 :=
  MMPTE.long_ne_zero (MMPTE.make_fields f perm).1

/-- The index of the addresses of a page table. -/
theorem PDX_table (hi : i < NPTENTRIES) : PDX (i * PTSIZE) = i := by
  rw [PDX, Nat.mul_div_cancel _ (by decide), Nat.mod_eq_of_lt hi]

/-- The page directory is a page table at its own index only. -/
theorem mmGetPteAddress_eq_pde (i : Nat) :
    mmGetPteAddress (i * PTSIZE) = MM_PDE_ADDRESS ↔ i = selfEntry := by
  have hself : selfEntry = 768 := by decide
  rw [hself]
  simp only [mmGetPteAddress, MM_PDE_ADDRESS, MMPAGETABLEAREA_START, PTSIZE, PGSIZE]
  omega

/-! ## The first page table -/

/-- The loop changes the memory only. -/
theorem bootMapPages_fields (t perm n a ph : Nat) (s : State) :
    (bootMapPages t perm n a ph s).cr3 = s.cr3
      ∧ (bootMapPages t perm n a ph s).PfnFreeList = s.PfnFreeList
      ∧ (bootMapPages t perm n a ph s).RefCount = s.RefCount := by
  induction n generalizing a ph s with
  | zero => exact ⟨rfl, rfl, rfl⟩
  | succ n ih => exact ih (a + PGSIZE) (ph + PGSIZE) _

/-- **Pages are mapped one after another.** -/
theorem entry_bootMapPages {t : Nat} (perm : Nat) (hk : k + n ≤ NPTENTRIES) :
    (bootMapPages t perm n (KERNBASE + k * PGSIZE) (k * PGSIZE) s).entry x j
      = if x = t ∧ k ≤ j ∧ j < k + n then .ofAddress (j * PGSIZE) perm else s.entry x j := by
  induction n generalizing k s with
  | zero =>
    rw [if_neg fun hno => by omega]
    rfl
  | succ n ih =>
    have hptx : PTX (KERNBASE + k * PGSIZE) = k := by
      simp only [PTX, KERNBASE, PGSIZE, NPTENTRIES] at *
      omega
    rw [bootMapPages, Nat.add_assoc KERNBASE, ← Nat.succ_mul, ih (by omega), hptx, entry_setEntry]
    by_cases hslot : x = t ∧ j = k
    · obtain ⟨rfl, rfl⟩ := hslot
      rw [if_neg fun hno => by omega, if_pos ⟨rfl, rfl⟩, if_pos ⟨rfl, Nat.le_refl _, by omega⟩]
    · rw [if_neg hslot]
      exact if_congr (by omega) rfl rfl

/-- **The first 4 MB are mapped.** -/
theorem miBootMapMemory_first {pgDir : Nat} (hfirst : first < mmNumberOfPhysicalPages)
    (hpde : s.entry (bootFrame pgDir) kernelEntry = .make first PTE_W) :
    ∃ s', miBootMapMemory pgDir KERNBASE PTSIZE 0 (PTE_P ||| PTE_W) s = .ok s'
      ∧ (s'.cr3 = s.cr3 ∧ s'.PfnFreeList = s.PfnFreeList ∧ s'.RefCount = s.RefCount)
      ∧ ∀ x j, s'.entry x j
        = if x = first ∧ j < NPTENTRIES then .make j PTE_W else s.entry x j := by
  have hlong : (MMPTE.make first PTE_W).Long.toNat = first * PGSIZE + 3 := by
    have hbits : first <<< 12 ||| (PTE_W ||| PTE_P) = first * PGSIZE + 3 :=
      (Nat.shiftLeft_add_eq_or_of_lt (by decide) first).symm.trans (by rw [Nat.shiftLeft_eq]; rfl)
    rw [MMPTE.make, hbits, BitVec.toNat_ofNat, Nat.mod_eq_of_lt]
    simp only [mmNumberOfPhysicalPages, MAXPHYMEM, PGSIZE] at *
    omega
  have hphysical : first * PGSIZE + 3 - (first * PGSIZE + 3) % 0x400 = first * PGSIZE := by
    simp only [PGSIZE]
    omega
  have hpages : (min PTSIZE PTSIZE + (PGSIZE - 1)) / PGSIZE = NPTENTRIES := by decide
  have hpasses : (PTSIZE + (PTSIZE - 1)) / PTSIZE = 1 := by decide
  have hnumber : ¬ mmNumberOfPhysicalPages ≤ first * PGSIZE / PGSIZE := by
    rw [Nat.mul_div_cancel _ (by decide)]
    omega
  have hframe : bootFrame (first * PGSIZE + KERNBASE) = first := by
    rw [bootFrame, Nat.add_sub_cancel, Nat.mul_div_cancel _ (by decide)]
  refine ⟨bootMapPages first (PTE_P ||| PTE_W) NPTENTRIES KERNBASE 0 s, ?_,
    bootMapPages_fields .., fun x j => ?_⟩
  · rw [miBootMapMemory, assert_of_true (by decide), kernel_ok_bind, assert_of_true (by decide),
      kernel_ok_bind, hpasses, bootMapTables, show PDX KERNBASE = kernelEntry from rfl, hpde,
      if_neg (MMPTE.make_ne_zero first PTE_W), hlong]
    dsimp only
    rw [hphysical, miBootPA2VA, if_neg hnumber, kernel_ok_bind, hpages, hframe]
    rfl
  · have hentry := entry_bootMapPages (s := s) (t := first) (x := x) (j := j) (k := 0) (n := NPTENTRIES)
      (PTE_P ||| PTE_W) (by decide)
    rw [Nat.zero_mul, Nat.add_zero, Nat.zero_add] at hentry
    rw [hentry]
    refine if_congr (by omega) ?_ rfl
    exact MMPTE.ofAddress_make j

/-! ## The PFN database -/

/-- Marking pages changes their counts only. -/
theorem markInUse_fields (n p : Nat) (s : State) : (markInUse n p s).ram = s.ram
    ∧ (markInUse n p s).cr3 = s.cr3 ∧ (markInUse n p s).PfnFreeList = s.PfnFreeList := by
  induction n generalizing p s with
  | zero => exact ⟨rfl, rfl, rfl⟩
  | succ n ih => exact ih (p + 1) _

/-- **The free pages** come to the end of the list, in their order. -/
theorem freePages_fields (n p : Nat) (s : State) : (freePages n p s).ram = s.ram
    ∧ (freePages n p s).cr3 = s.cr3
    ∧ (freePages n p s).PfnFreeList = s.PfnFreeList ++ List.range' p n
    ∧ ∀ f, (freePages n p s).RefCount f = if p ≤ f ∧ f < p + n then 0 else s.RefCount f := by
  induction n generalizing p s with
  | zero =>
    refine ⟨rfl, rfl, (List.append_nil _).symm, fun f => ?_⟩
    rw [if_neg fun hno => by omega]
    rfl
  | succ n ih =>
    obtain ⟨hram, hcr, hlist, hcount⟩ := ih (p + 1) { s with
      RefCount := Function.update s.RefCount p 0, PfnFreeList := s.PfnFreeList ++ [p] }
    refine ⟨hram, hcr, ?_, fun f => ?_⟩
    · rw [freePages, hlist, List.range'_succ, List.append_assoc]
      rfl
    · rw [freePages, hcount]
      by_cases hf : f = p
      · subst hf
        rw [if_neg fun hno => by omega, if_pos ⟨Nat.le_refl _, by omega⟩]
        exact Function.update_self ..
      · exact if_congr (by omega) rfl (Function.update_of_ne hf ..)

/-- **The free list** holds the frames behind what the boot has allocated. -/
theorem mmInitPFNDataBase_ok {ptr : Nat} (hlo : KERNBASE ≤ ptr) (hhi : ptr < KERNBASE + PTSIZE) :
    ∃ s', mmInitPFNDataBase ptr s = .ok s' ∧ s'.ram = s.ram ∧ s'.cr3 = s.cr3
      ∧ s'.PfnFreeList
        = List.range' (bootFrame ptr) (mmNumberOfPhysicalPages - bootFrame ptr)
      ∧ ∀ f, bootFrame ptr ≤ f → f < mmNumberOfPhysicalPages → s'.RefCount f = 0 := by
  obtain ⟨s₁, hrun, hram, hcr, hlist⟩ : ∃ s₁ : State, mmInitPFNDataBase ptr s
      = .ok (freePages (MAXPHYMEM / PGSIZE - (ptr - KERNBASE) / PGSIZE) ((ptr - KERNBASE) / PGSIZE) s₁)
      ∧ s₁.ram = s.ram ∧ s₁.cr3 = s.cr3 ∧ s₁.PfnFreeList = [] := by
    refine ⟨markInUse ((ptr - KERNBASE) / PGSIZE - EXTPHYSMEM / PGSIZE) (EXTPHYSMEM / PGSIZE)
      (markLowPages { s with PfnFreeList := [] }), ?_, ?_, ?_, ?_⟩
    · rw [mmInitPFNDataBase, assert_of_true hhi, kernel_ok_bind, miBootVA2PA,
        if_neg (Nat.not_lt.mpr hlo), kernel_ok_bind]
      rfl
    · simp only [markInUse_fields, markLowPages]
    · simp only [markInUse_fields, markLowPages]
    · simp only [markInUse_fields, markLowPages]
  obtain ⟨hram', hcr', hlist', hcount⟩ := freePages_fields
    (MAXPHYMEM / PGSIZE - (ptr - KERNBASE) / PGSIZE) ((ptr - KERNBASE) / PGSIZE) s₁
  refine ⟨_, hrun, hram'.trans hram, hcr'.trans hcr, ?_, fun f hlo hhi => ?_⟩
  · rw [hlist', hlist, List.nil_append, bootFrame, mmNumberOfPhysicalPages]
  · rw [hcount]
    simp only [bootFrame, mmNumberOfPhysicalPages] at hlo hhi
    exact if_pos ⟨hlo, by omega⟩

/-! ## The kernel half -/

/-- The frame of the page table with the index `i`: they are taken off the free list one after
another, from the frame `q` on. -/
def tableFrame (q i : Nat) : Nat := if i ≤ selfEntry then q + (i - 513) else q + (i - 514)

/-- **The page tables of the kernel half below the index `i`** have been made; `g` is the frame of the
page directory, and `first` that of the first page table. The frames that are still free hold what they
held in `s₀`. -/
structure HalfBuilt (s₀ : State) (g first q i : Nat) (s : State) : Prop where
  cr3 : s.cr3 = g
  list : s.PfnFreeList = List.range' (tableFrame q i) (mmNumberOfPhysicalPages - tableFrame q i)
  count : ∀ f, q ≤ f → f < mmNumberOfPhysicalPages → s.RefCount f = 0
  user : ∀ j < kernelEntry, s.entry g j = ⟨0⟩
  pde : s.entry g kernelEntry = .make first PTE_W
  self : s.entry g selfEntry = .make g PTE_W
  tables : ∀ j, kernelEntry < j → j < i → j ≠ selfEntry →
    s.entry g j = .make (tableFrame q j) PTE_W ∧ ∀ k, s.entry (tableFrame q j) k = ⟨0⟩
  rest : ∀ j, i ≤ j → j < NPTENTRIES → j ≠ selfEntry → s.entry g j = ⟨0⟩
  identity : ∀ j < NPTENTRIES, s.entry first j = .make j PTE_W
  kept : ∀ f, tableFrame q i ≤ f → ∀ j, s.entry f j = s₀.entry f j

/-- The state after a page table has been made at the index `i`. -/
def State.kernelTable (s : State) (g q i : Nat) : State :=
  (State.setEntry { s with
    PfnFreeList := List.range' (tableFrame q i + 1) (mmNumberOfPhysicalPages - (tableFrame q i + 1)) }
    g i (.make (tableFrame q i) PTE_W)).clearFrame (tableFrame q i)

theorem tableFrame_self : tableFrame q (selfEntry + 1) = tableFrame q selfEntry := by
  have hself : selfEntry = 768 := by decide
  rw [tableFrame, tableFrame, if_neg (by omega), if_pos (Nat.le_refl _), hself]

/-- The page directory itself takes no frame. -/
theorem HalfBuilt.skip (h : HalfBuilt s₀ g first q selfEntry s) :
    HalfBuilt s₀ g first q (selfEntry + 1) s where
  cr3 := h.cr3
  list := by
    rw [tableFrame_self]
    exact h.list
  count := h.count
  user := h.user
  pde := h.pde
  self := h.self
  tables j hlo hhi hne := h.tables j hlo (by omega) hne
  rest j hlo := h.rest j (by omega)
  identity := h.identity
  kept f hf := h.kept f (tableFrame_self ▸ hf)

/-- **A page table is made.** -/
theorem HalfBuilt.next (h : HalfBuilt s₀ g first q i s) (hg : g < q) (hfirst : first < q)
    (hgf : g ≠ first) (hlo : kernelEntry < i) (hi : i < NPTENTRIES) (hne : i ≠ selfEntry)
    (hq : q + 510 < mmNumberOfPhysicalPages) :
    s.PfnFreeList = tableFrame q i
        :: List.range' (tableFrame q i + 1) (mmNumberOfPhysicalPages - (tableFrame q i + 1))
      ∧ s.entry g i = ⟨0⟩
      ∧ HalfBuilt s₀ g first q (i + 1) (s.kernelTable g q i) := by
  have hconst : kernelEntry = 512 ∧ selfEntry = 768 ∧ NPTENTRIES = 1024 := by decide
  have hpages : mmNumberOfPhysicalPages = 65536 := by decide
  obtain ⟨hkernel, hself, hentries⟩ := hconst
  have hframe : tableFrame q i + 1 = tableFrame q (i + 1) ∧ q ≤ tableFrame q i
      ∧ tableFrame q i < mmNumberOfPhysicalPages := by
    simp only [tableFrame, hself, hkernel, hentries] at *
    split <;> split <;> omega
  have hinj : ∀ j, kernelEntry < j → j < i → j ≠ selfEntry → tableFrame q j ≠ tableFrame q i := by
    intro j hj hji hjs
    simp only [tableFrame, hself, hkernel] at *
    split <;> split <;> omega
  have hcount : mmNumberOfPhysicalPages - tableFrame q i
      = mmNumberOfPhysicalPages - (tableFrame q i + 1) + 1 := by omega
  have hgt : g ≠ tableFrame q i := by omega
  have hft : first ≠ tableFrame q i := by omega
  have hdir : ∀ j, j ≠ i → (s.kernelTable g q i).entry g j = s.entry g j := fun j hj =>
    (entry_clearFrame_of_ne hgt).trans (entry_setEntry_of_ne (Or.inr hj))
  have hother : ∀ x, x ≠ tableFrame q i → x ≠ g → ∀ j,
      (s.kernelTable g q i).entry x j = s.entry x j := fun x hx hxg j =>
    (entry_clearFrame_of_ne hx).trans (entry_setEntry_of_ne (Or.inl hxg))
  refine ⟨?_, h.rest i (Nat.le_refl i) hi hne, h.cr3, ?_, h.count, fun j hj => ?_, ?_, ?_,
    fun j hj hji hjs => ?_, fun j hj hjn hjs => ?_, fun j hj => ?_, fun f hf j => ?_⟩
  · rw [h.list, hcount, List.range'_succ]
  · rw [← hframe.1]
    rfl
  · rw [hdir j (by omega)]
    exact h.user j hj
  · rw [hdir _ (by omega)]
    exact h.pde
  · rw [hdir _ hne.symm]
    exact h.self
  · by_cases hji' : j = i
    · subst hji'
      exact ⟨(entry_clearFrame_of_ne hgt).trans entry_setEntry_self, fun k => entry_clearFrame_self⟩
    · obtain ⟨hpde, hclear⟩ := h.tables j hj (by omega) hjs
      have hjg : tableFrame q j ≠ g := by
        have hge : q ≤ tableFrame q j := by
          simp only [tableFrame]
          split <;> omega
        omega
      exact ⟨(hdir j hji').trans hpde,
        fun k => (hother _ (hinj j hj (by omega) hjs) hjg k).trans (hclear k)⟩
  · rw [hdir j (by omega)]
    exact h.rest j (by omega) hjn hjs
  · rw [hother first hft hgf.symm]
    exact h.identity j hj
  · rw [hother f (by omega) (by omega)]
    exact h.kept f (by omega) j

/-- **The page tables of the kernel half are made.** -/
theorem kernelTablesLoop_ok (h : HalfBuilt s₀ g first q i s) (hg : g < q) (hfirst : first < q)
    (hgf : g ≠ first) (hlo : kernelEntry < i) (hn : i + n = NPTENTRIES)
    (hq : q + 510 < mmNumberOfPhysicalPages) :
    ∃ s', kernelTablesLoop g n (i * PTSIZE) s = .ok s' ∧ HalfBuilt s₀ g first q NPTENTRIES s' := by
  induction n generalizing i s with
  | zero =>
    obtain rfl : i = NPTENTRIES := by omega
    exact ⟨s, rfl, h⟩
  | succ n ih =>
    have hi : i < NPTENTRIES := by omega
    rw [kernelTablesLoop, ← Nat.succ_mul]
    by_cases hself : i = selfEntry
    · rw [if_pos ((mmGetPteAddress_eq_pde i).mpr hself)]
      subst hself
      exact ih h.skip (by omega) (by omega)
    · obtain ⟨hlist, hempty, hnext⟩ := h.next hg hfirst hgf hlo hi hself hq
      obtain ⟨s', hrun, hbuilt⟩ := ih hnext (by omega) (by omega)
      refine ⟨s', ?_, hbuilt⟩
      have hzero : ∀ rest, (State.entry { s with PfnFreeList := rest } g i).Long = 0 := fun _ =>
        congrArg MMPTE.Long hempty
      have hbound : tableFrame q i < 1048576 := by
        have hself' : selfEntry = 768 := by decide
        have hpages : mmNumberOfPhysicalPages = 65536 := by decide
        simp only [tableFrame, NPTENTRIES] at *
        split <;> omega
      have hpde : ∀ rest, (State.setEntry { s with PfnFreeList := rest } g i
          (.make (tableFrame q i) PTE_W)).pde (i * PTSIZE) = .make (tableFrame q i) PTE_W := by
        intro rest
        rw [State.pde, PDX_table hi]
        show State.entry _ s.cr3 i = _
        rw [h.cr3]
        exact entry_setEntry_self
      rw [if_neg fun heq => hself ((mmGetPteAddress_eq_pde i).mp heq)]
      simp only [mmAllocatePFN, hlist, PDX_table hi]
      rw [assert_of_true (hzero _), kernel_ok_bind, hpde _, MMPTE.make_frame hbound (by decide)]
      exact hrun

/-! ## The whole boot -/

/-- What is allocated next is behind what has been allocated. -/
theorem miInitBootAlloc_next {ptr size a d m : Nat} (hne : ptr ≠ 0) (halign : ptr % PGSIZE = 0)
    (hbound : ptr + size + PGSIZE ≤ ULONG_VALUES) :
    miInitBootAlloc kernelEnd size PGSIZE ⟨s, ptr, a, d, m⟩ = (ptr, ⟨s, ptr + size, a, d, m⟩) := by
  have hpos : 0 < PGSIZE := by decide
  have hround := roundUp_page halign (by omega)
  have hsum : ulongAdd ptr size = ptr + size := Nat.mod_eq_of_lt (by omega)
  rw [miInitBootAlloc, if_neg hne, hround, hsum]

/-- The address behind the kernel's image. -/
theorem roundUp_kernelEnd (hhi : kernelEnd ≤ KERNBASE + MAXPHYMEM) :
    kernelEnd ≤ roundUp kernelEnd PGSIZE ∧ roundUp kernelEnd PGSIZE < kernelEnd + PGSIZE
      ∧ roundUp kernelEnd PGSIZE % PGSIZE = 0 := by
  simp only [roundUp, ulongSub, ulongAdd, ULONG_VALUES, PGSIZE, KERNBASE, MAXPHYMEM] at *
  omega

/-- **What the boot allocates**: the PFN database, the page directory, the first page table and the
bitmap are one behind the other. -/
theorem bootAllocations (hlo : KERNBASE + EXTPHYSMEM ≤ kernelEnd)
    (hhi : kernelEnd ≤ KERNBASE + MAXPHYMEM) (s s' : State) :
    miInitBootAlloc kernelEnd (sizeofMMPFN * mmNumberOfPhysicalPages) PGSIZE ⟨s, 0, 0, 0, 0⟩
        = (roundUp kernelEnd PGSIZE, ⟨s, roundUp kernelEnd PGSIZE + 0x100000, 0, 0, 0⟩)
      ∧ miInitBootAlloc kernelEnd PGSIZE PGSIZE ⟨s, roundUp kernelEnd PGSIZE + 0x100000, 0, 0, 0⟩
        = (roundUp kernelEnd PGSIZE + 0x100000, ⟨s, roundUp kernelEnd PGSIZE + 0x101000, 0, 0, 0⟩)
      ∧ miInitBootAlloc kernelEnd PGSIZE PGSIZE ⟨s, roundUp kernelEnd PGSIZE + 0x101000, 0, 0, 0⟩
        = (roundUp kernelEnd PGSIZE + 0x101000, ⟨s, roundUp kernelEnd PGSIZE + 0x102000, 0, 0, 0⟩)
      ∧ mmInitializeSystemPtes kernelEnd ⟨s', roundUp kernelEnd PGSIZE + 0x102000,
          roundUp kernelEnd PGSIZE, roundUp kernelEnd PGSIZE + 0x100000, 0⟩
        = ⟨s', roundUp kernelEnd PGSIZE + 0x104008, roundUp kernelEnd PGSIZE,
          roundUp kernelEnd PGSIZE + 0x100000, roundUp kernelEnd PGSIZE + 0x102000⟩ := by
  obtain ⟨hle, hlt, halign⟩ := roundUp_kernelEnd hhi
  have hsize : sizeofMMPFN * mmNumberOfPhysicalPages = 0x100000
      ∧ bmBitmapBufferSize systemPteCount = 0x2008 := by decide
  have hconst : KERNBASE + MAXPHYMEM + 0x200000 < ULONG_VALUES ∧ 0 < KERNBASE ∧ PGSIZE = 0x1000 := by
    decide
  obtain ⟨hbound, hpos, hpage⟩ := hconst
  have hend : kernelEnd ≠ 0 := by omega
  have hfirst : miInitBootAlloc kernelEnd (sizeofMMPFN * mmNumberOfPhysicalPages) PGSIZE ⟨s, 0, 0, 0, 0⟩
      = (roundUp kernelEnd PGSIZE, ⟨s, roundUp kernelEnd PGSIZE + 0x100000, 0, 0, 0⟩) := by
    rw [miInitBootAlloc, if_pos rfl, hsize.1, ulongAdd, Nat.mod_eq_of_lt (by omega)]
  generalize roundUp kernelEnd PGSIZE = P at *
  have hpages : (P + 0x100000) % PGSIZE = 0 ∧ (P + 0x101000) % PGSIZE = 0
      ∧ (P + 0x102000) % PGSIZE = 0 := by
    rw [hpage] at halign ⊢
    omega
  refine ⟨hfirst, ?_, ?_, ?_⟩
  · rw [miInitBootAlloc_next (by omega) hpages.1 (by omega)]
    simp only [hpage, Nat.add_assoc, Nat.reduceAdd]
  · rw [miInitBootAlloc_next (by omega) hpages.2.1 (by omega)]
    simp only [hpage, Nat.add_assoc, Nat.reduceAdd]
  · simp only [mmInitializeSystemPtes, hsize.2,
      miInitBootAlloc_next (show P + 0x102000 ≠ 0 by omega) hpages.2.2
        (show P + 0x102000 + 0x2008 + PGSIZE ≤ ULONG_VALUES by omega), Nat.add_assoc, Nat.reduceAdd]

/-- **The boot returns** when the kernel and what has been allocated are in the first 4 MB. -/
theorem miBootInitMemoryLayout_returns (hlo : KERNBASE + EXTPHYSMEM ≤ kernelEnd)
    (hhi : kernelEnd ≤ KERNBASE + MAXPHYMEM)
    (hfit : roundUp kernelEnd PGSIZE + 0x104008 < KERNBASE + PTSIZE)
    (hg : g = bootFrame (roundUp kernelEnd PGSIZE + 0x100000)) (s : State) :
    ∃ b, miBootInitMemoryLayout kernelEnd s = .ok b
      ∧ b.GlobalPgdir = roundUp kernelEnd PGSIZE + 0x100000
      ∧ HalfBuilt s g (g + 1) (g + 4) NPTENTRIES b.state := by
  obtain ⟨hle, hlt, halign⟩ := roundUp_kernelEnd hhi
  obtain ⟨halloc₁, halloc₂, halloc₃, -⟩ := bootAllocations hlo hhi s s
  have hptes := fun s' => (bootAllocations hlo hhi s s').2.2.2
  generalize roundUp kernelEnd PGSIZE = P at *
  have hconst : KERNBASE = 0x80000000 ∧ PTSIZE = 0x400000 ∧ PGSIZE = 0x1000
      ∧ EXTPHYSMEM = 0x100000 ∧ mmNumberOfPhysicalPages = 65536 ∧ kernelEntry = 512
      ∧ selfEntry = 768 := by decide
  obtain ⟨hbase, hptsize, hpgsize, hext, hpages, hkernel, hself⟩ := hconst
  have hphysical : P + 0x100000 - KERNBASE = g * PGSIZE ∧ P + 0x101000 - KERNBASE = (g + 1) * PGSIZE
      ∧ bootFrame (P + 0x101000) = g + 1 ∧ bootFrame (P + 0x104008) = g + 4 ∧ g < 1020 := by
    simp only [bootFrame, hbase, hptsize, hpgsize, hext] at *
    omega
  obtain ⟨hdir, htable, hfirst, hfree, hbound⟩ := hphysical
  have hnot : ∀ x, KERNBASE ≤ P + x ∧ ¬ P + x < KERNBASE := fun x => by omega
  have hdirLo := (hnot 0x100000).2
  have hfirstLo := (hnot 0x101000).2
  have hendLo := (hnot 0x104008).1
  generalize P + 0x100000 = D at *
  generalize P + 0x101000 = F at *
  generalize P + 0x104008 = E at *
  rw [miBootInitMemoryLayout]
  dsimp only
  rw [halloc₁]
  dsimp only
  rw [halloc₂]
  dsimp only
  rw [halloc₃]
  dsimp only
  rw [miBootVA2PA, if_neg hfirstLo, kernel_ok_bind, miBootVA2PA, if_neg hdirLo, ← hg, hfirst, hptes,
    htable, MMPTE.ofAddress_make]
  -- the first page table
  have hpde : (((s.clearFrame g).clearFrame (g + 1)).setEntry g (PDX KERNBASE)
      (.make (g + 1) PTE_W)).entry (bootFrame D) kernelEntry = .make (g + 1) PTE_W := by
    rw [← hg]
    exact entry_setEntry_self
  obtain ⟨s₁, hmap, ⟨-, -, -⟩, hentry₁⟩ := miBootMapMemory_first (by omega) hpde
  rw [hmap, kernel_ok_bind]
  dsimp only
  obtain ⟨s₂, hpfn, hram₂, -, hlist₂, hcount₂⟩ := mmInitPFNDataBase_ok (s := s₁) hendLo hfit
  rw [hpfn, kernel_ok_bind, kernel_ok_bind, hdir, MMPTE.ofAddress_make,
    Nat.mul_div_cancel g (show 0 < PGSIZE by decide)]
  rw [hfree] at hlist₂ hcount₂
  have hentry₂ : ∀ x j, s₂.entry x j = s₁.entry x j := fun x j =>
    congrArg MMPTE.mk (PhysicalMemory.word_congr (congrFun hram₂ x) j)
  -- the page directory, and the first page table
  have hdirectory : ∀ j, s₂.entry g j = if j = kernelEntry then .make (g + 1) PTE_W else ⟨0⟩ := by
    intro j
    rw [hentry₂, hentry₁, if_neg fun hno => by omega, entry_setEntry]
    by_cases hj : j = kernelEntry
    · rw [if_pos ⟨rfl, hj⟩, if_pos hj]
    · rw [if_neg fun hno => hj hno.2, if_neg hj, entry_clearFrame_of_ne (by omega),
        entry_clearFrame_self]
  have hidentity : ∀ j < NPTENTRIES, s₂.entry (g + 1) j = .make j PTE_W := by
    intro j hj
    rw [hentry₂, hentry₁, if_pos ⟨rfl, hj⟩]
  have hbuilt : HalfBuilt s g (g + 1) (g + 4) (kernelEntry + 1)
      (((mmAttachToAddressSpace g (s₂.setEntry g 0 (s₂.entry g (PDX KERNBASE)))).setEntry g 0
        ⟨0⟩).setEntry g (PDX MMPAGETABLEAREA_START) (.make g PTE_W)) := by
    have hself' : PDX MMPAGETABLEAREA_START = selfEntry := rfl
    have hstart : tableFrame (g + 4) (kernelEntry + 1) = g + 4 := by
      rw [tableFrame, hkernel, hself, if_pos (by decide)]
    have hrow : ∀ j, j ≠ 0 → j ≠ selfEntry → (((mmAttachToAddressSpace g
        (s₂.setEntry g 0 (s₂.entry g (PDX KERNBASE)))).setEntry g 0 ⟨0⟩).setEntry g
          (PDX MMPAGETABLEAREA_START) (.make g PTE_W)).entry g j = s₂.entry g j := fun j hj hjs =>
      (entry_setEntry_of_ne (Or.inr hjs)).trans ((entry_setEntry_of_ne (Or.inr hj)).trans
        (entry_setEntry_of_ne (Or.inr hj)))
    refine ⟨rfl, ?_, fun f hlo hhi => hcount₂ f hlo hhi, fun j hj => ?_, ?_, entry_setEntry_self,
      fun j hj hji => by omega, fun j hj _ hjs => ?_, fun j hj => ?_, fun f hf j => ?_⟩
    · rw [hstart]
      exact hlist₂
    · by_cases hzero : j = 0
      · subst hzero
        exact (entry_setEntry_of_ne (Or.inr (by decide))).trans entry_setEntry_self
      · rw [hrow j hzero (by omega), hdirectory, if_neg (by omega)]
    · rw [hrow _ (by omega) (by omega), hdirectory, if_pos rfl]
    · rw [hrow j (by omega) hjs, hdirectory, if_neg (by omega)]
    · refine ((entry_setEntry_of_ne (Or.inl (by omega))).trans ((entry_setEntry_of_ne
        (Or.inl (by omega))).trans (entry_setEntry_of_ne (Or.inl (by omega))))).trans ?_
      exact hidentity j hj
    · rw [hstart] at hf
      refine (entry_setEntry_of_ne (Or.inl (by omega))).trans ((entry_setEntry_of_ne
        (Or.inl (by omega))).trans ((entry_setEntry_of_ne (Or.inl (by omega))).trans ?_))
      rw [hentry₂, hentry₁, if_neg fun hno => by omega, entry_setEntry_of_ne (Or.inl (by omega)),
        entry_clearFrame_of_ne (by omega), entry_clearFrame_of_ne (by omega)]
  have hstart : KERNBASE + PTSIZE = (kernelEntry + 1) * PTSIZE
      ∧ (ULONG_VALUES - (KERNBASE + PTSIZE)) / PTSIZE = 511 := by decide
  obtain ⟨s₃, hloop, hbuilt₃⟩ := kernelTablesLoop_ok (n := 511) hbuilt (by omega) (by omega) (by omega)
    (by omega) (by decide) (by omega)
  rw [← hstart.1] at hloop
  rw [hstart.2, hloop, kernel_ok_bind]
  exact ⟨_, rfl, rfl, hbuilt₃⟩

/-- **The boot returns only then**: `MmInitPFNDataBase` asserts it. -/
theorem miBootInitMemoryLayout_fits {b : Boot} (hlo : KERNBASE + EXTPHYSMEM ≤ kernelEnd)
    (hhi : kernelEnd ≤ KERNBASE + MAXPHYMEM) (hrun : miBootInitMemoryLayout kernelEnd s = .ok b) :
    roundUp kernelEnd PGSIZE + 0x104008 < KERNBASE + PTSIZE := by
  obtain ⟨halloc₁, halloc₂, halloc₃, -⟩ := bootAllocations hlo hhi s s
  have hptes := fun s' => (bootAllocations hlo hhi s s').2.2.2
  generalize roundUp kernelEnd PGSIZE = P at *
  rw [miBootInitMemoryLayout] at hrun
  dsimp only at hrun
  rw [halloc₁] at hrun
  dsimp only at hrun
  rw [halloc₂] at hrun
  dsimp only at hrun
  rw [halloc₃] at hrun
  dsimp only at hrun
  rw [hptes] at hrun
  obtain ⟨_, -, hrun⟩ := kernel_bind_eq_ok.mp hrun
  obtain ⟨s₁, -, hrun⟩ := kernel_bind_eq_ok.mp hrun
  obtain ⟨s₂, hpfn, -⟩ := kernel_bind_eq_ok.mp hrun
  obtain ⟨_, hassert, -⟩ := kernel_bind_eq_ok.mp hpfn
  exact assert_eq_ok.mp hassert

/-! ## What the boot leaves -/

/-- **The kernel half of all address spaces**: the first 4 MB of the memory are mapped at `KERNBASE`,
and the other page tables are those in `L.kernel`. -/
structure KernelHalf (L : Layout) (first : Nat) (s : State) : Prop where
  pde : s.entry L.globalPgdir kernelEntry = .make first PTE_W
  identity : ∀ j < NPTENTRIES, s.entry first j = .make j PTE_W
  onto : ∀ x ∈ L.kernel, ∃ i, KernelIndex i ∧ (s.entry L.globalPgdir i).PageFrameNumber = x

/-- **Where the boot has left what**: the first page table is in a frame of its own, and no frame of
the first 4 MB is managed. -/
structure Layout.Behind (L : Layout) (first : Nat) : Prop where
  notManaged : first ∉ L.managed
  notKernel : first ∉ L.kernel
  bound : first < 1048576
  above : ∀ f ∈ L.managed, NPTENTRIES ≤ f

/-- **The kernel half stays** when only managed frames and its other page tables are written. -/
theorem KernelHalf.confined {L : Layout} (h : KernelHalf L first s) (hL : L.Behind first)
    (hs : Confined L s s') : KernelHalf L first s' := by
  have hentry : ∀ x, x ∉ L.managed → x ∉ L.kernel → ∀ j, s'.entry x j = s.entry x j :=
    fun x hx hk j => congrArg MMPTE.mk (PhysicalMemory.word_congr (hs x hx hk) j)
  have hglobal := hentry _ L.global_notMem L.global_notKernel
  refine ⟨(hglobal _).trans h.pde,
    fun j hj => (hentry _ hL.notManaged hL.notKernel j).trans (h.identity j hj), fun x hx => ?_⟩
  obtain ⟨i, hi, hframe⟩ := h.onto x hx
  exact ⟨i, hi, by rw [hglobal, hframe]⟩

/-- **What the boot leaves** is a memory as the runs start with, whose free frames are the managed
ones. -/
theorem miBootInitMemoryLayout_booted {b : Boot} (hlo : KERNBASE + EXTPHYSMEM ≤ kernelEnd)
    (hhi : kernelEnd ≤ KERNBASE + MAXPHYMEM) (hrun : miBootInitMemoryLayout kernelEnd s = .ok b) :
    ∃ L first, L.globalPgdir = bootFrame b.GlobalPgdir ∧ L.Behind first ∧ Booted L b.state
      ∧ KernelHalf L first b.state := by
  have hfit := miBootInitMemoryLayout_fits hlo hhi hrun
  obtain ⟨hle, -, -⟩ := roundUp_kernelEnd hhi
  obtain ⟨g, hg⟩ : ∃ g, g = bootFrame (roundUp kernelEnd PGSIZE + 0x100000) := ⟨_, rfl⟩
  obtain ⟨b', hrun', hdir, hbuilt⟩ := miBootInitMemoryLayout_returns hlo hhi hfit hg s
  obtain rfl : b' = b := Except.ok.inj (hrun'.symm.trans hrun)
  have hconst : kernelEntry = 512 ∧ selfEntry = 768 ∧ NPTENTRIES = 1024
      ∧ mmNumberOfPhysicalPages = 65536 := by decide
  obtain ⟨hkernel, hself, hentries, hpages⟩ := hconst
  have hbounds : 512 ≤ g ∧ g < 1020 := by
    simp only [bootFrame, KERNBASE, EXTPHYSMEM, PTSIZE, PGSIZE] at hg hfit hlo hle
    omega
  have hlast : tableFrame (g + 4) NPTENTRIES = g + 514 := by
    rw [tableFrame, hself, hentries, if_neg (by omega)]
  have hlist := hbuilt.list
  rw [hlast, hpages] at hlist
  -- the page tables are in the frames from `g + 4` on
  have hframes : ∀ i, KernelIndex i → g + 4 ≤ tableFrame (g + 4) i
      ∧ tableFrame (g + 4) i < g + 514 := by
    rintro i ⟨hi, hi', hne⟩
    simp only [tableFrame, hself, hkernel, hentries] at *
    split <;> omega
  have hpde : ∀ i, KernelIndex i → (b'.state.entry g i).Valid = true
      ∧ (b'.state.entry g i).PageFrameNumber = tableFrame (g + 4) i := by
    rintro i ⟨hi, hi', hne⟩
    have hframe := hframes i ⟨hi, hi', hne⟩
    rw [(hbuilt.tables i hi hi' hne).1]
    exact ⟨(MMPTE.make_fields ..).1, MMPTE.make_frame (by omega) (by decide)⟩
  have honto : ∀ x, g + 4 ≤ x → x < g + 514 → ∃ i, KernelIndex i ∧ tableFrame (g + 4) i = x := by
    intro x hxlo hxhi
    refine ⟨if x < g + 259 then x - (g + 4) + 513 else x - (g + 4) + 514, ?_, ?_⟩
    · simp only [KernelIndex, hkernel, hself, hentries]
      split <;> omega
    · simp only [tableFrame, hself]
      split <;> split <;> omega
  have hmanaged : ∀ f, f ∈ Finset.Ico (g + 514) 65536 ↔ f ∈ b'.state.PfnFreeList := by
    intro f
    rw [hlist, List.mem_range'_1, Finset.mem_Ico]
    omega
  refine ⟨⟨g, Finset.Ico (g + 4) (g + 514), Finset.Ico (g + 514) 65536, ?_, ?_, ?_, ?_⟩, g + 1,
    hg.trans (congrArg bootFrame hdir.symm), ⟨?_, ?_, by omega, ?_⟩, ?_, hbuilt.pde, hbuilt.identity, ?_⟩
  · intro f hf
    rw [Finset.mem_Ico] at hf
    omega
  · intro x hx
    rw [Finset.mem_Ico] at hx ⊢
    omega
  · rw [Finset.mem_Ico]
    omega
  · rw [Finset.mem_Ico]
    omega
  · rw [Finset.mem_Ico]
    omega
  · rw [Finset.mem_Ico]
    omega
  · intro f hf
    rw [Finset.mem_Ico] at hf
    omega
  · refine ⟨hbuilt.cr3, ?_, fun f => (hmanaged f).symm, fun f hf => ?_, hbuilt.user, ?_, fun i hi => ?_,
      fun x hx j _ => ?_⟩
    · rw [hlist]
      exact List.nodup_range'
    · rw [Finset.mem_Ico] at hf
      exact hbuilt.count f (by omega) (by omega)
    · show (b'.state.entry g selfEntry).Valid = true ∧ (b'.state.entry g selfEntry).PageFrameNumber = g
      rw [hbuilt.self]
      exact ⟨(MMPTE.make_fields ..).1, MMPTE.make_frame (by omega) (by decide)⟩
    · have hframe := hframes i hi
      obtain ⟨hvalid, hnumber⟩ := hpde i hi
      refine ⟨hvalid, ?_⟩
      rw [hnumber, Finset.mem_Ico]
      exact hframe
    · rw [Finset.mem_Ico] at hx
      obtain ⟨i, ⟨hi, hi', hne⟩, rfl⟩ := honto x hx.1 hx.2
      exact (hbuilt.tables i hi hi' hne).2 j
  · intro x hx
    rw [Finset.mem_Ico] at hx
    obtain ⟨i, hi, hframe⟩ := honto x hx.1 hx.2
    exact ⟨i, hi, (hpde i hi).2.trans hframe⟩

end KaushOS.Paging
