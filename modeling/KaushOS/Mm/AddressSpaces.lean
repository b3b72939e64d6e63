import KaushOS.Mm.PageSharing

/-! # Address spaces come and go

* **`Ledger.mmCreateProcessAddressSpace`** — a new page directory with an empty user half.
* **`Ledger.deletePagesLoop`, `Ledger.deleteTable`, `Ledger.deleteLoop`** — the pages of one page table,
  the page table, and all page tables of a process.
* **`Ledger.mmDeleteProcessAddressSpace`** — the whole address space, with its page directory. -/

namespace KaushOS.Paging

variable {L : Layout} {dirs tables : Finset Nat} {held : Nat → Nat} {out : Finset Nat}
  {s s' : State} {a c d e f i j n page t x : Nat}

/-! ## A new address space -/

/-- A page takes one pass. -/
theorem roundUp_one : roundUp PGSIZE PGSIZE / PGSIZE = 1 := by decide

/-- **`MmVirtualAlloc` of one page.** -/
theorem mmVirtualAlloc_page {perm : Nat} (hrun : mmVirtualAlloc a PGSIZE perm s = .ok s') :
    ∃ pfn rest, s.PfnFreeList = pfn :: rest
      ∧ miInsertPage s.cr3 a pfn (perm ||| PTE_P) { s with PfnFreeList := rest }
        = .ok (.STATUS_SUCCESS, s') := by
  rw [mmVirtualAlloc, roundUp_one, virtualAllocLoop] at hrun
  cases hfree : s.PfnFreeList with
  | nil =>
    simp only [mmAllocatePFN, hfree] at hrun
    cases hrun
  | cons pfn rest =>
    simp only [mmAllocatePFN, hfree] at hrun
    obtain ⟨⟨status, s₁⟩, hinsert, hrun⟩ := kernel_bind_eq_ok.mp hrun
    cases status with
    | STATUS_NO_MEMORY => cases hrun
    | STATUS_SUCCESS =>
      cases hrun
      exact ⟨pfn, rest, rfl, hinsert⟩

/-- **What has changed when there is a new address space.** -/
structure Created (L : Layout) (dirs tables' : Finset Nat) (page d : Nat) (s s' : State) : Prop where
  cr3 : s'.cr3 = s.cr3
  new : d ∉ dirs
  mapped : s'.physical page = d
  empty : ∀ i < userEntries, s'.entry d i = ⟨0⟩
  leaf : ∀ d' ∈ dirs, ∀ i < userEntries, ∀ j < NPTENTRIES, leaf s'.entry d' i j = leaf s.entry d' i j
  ram : ∀ f, f ∉ insert d dirs → f ∉ tables' → f ∉ L.kernel → s'.ram f = s.ram f

/-- **`MmCreateProcessAddressSpace` keeps the ledger.** -/
theorem Ledger.mmCreateProcessAddressSpace (h : Ledger L dirs tables held out s)
    (hcr : s.cr3 ∈ dirs ∨ s.cr3 = L.globalPgdir) (hpage : KernelIndex (PDX page))
    (hdir : NoDirectory dirs s page)
    (hrun : mmCreateProcessAddressSpace L.globalPgdir page s = .ok s') :
    ∃ tables' d, Ledger L (insert d dirs) tables' held out s' ∧ Created L dirs tables' page d s s' := by
  obtain ⟨s₁, halloc, hrun⟩ := kernel_bind_eq_ok.mp hrun
  cases hrun
  obtain ⟨pfn, rest, hfree, hinsert⟩ := mmVirtualAlloc_page halloc
  have hin : pfn ∈ s.PfnFreeList := hfree ▸ List.mem_cons_self ..
  have hfresh := h.fresh hin
  obtain ⟨tables', hledger, hchange⟩ := h.mapFresh (Or.inr ⟨hpage, hcr⟩) hfree (by decide) (by decide)
    (fun hu => absurd hu (by decide)) hdir hinsert
  obtain ⟨hpde, hpte⟩ := hchange.there _ rfl
  have hframe : s₁.physical page = pfn := by
    rw [State.physical, hpte]
    exact MMPTE.make_frame (L.bound pfn hfresh.managed).2 (by decide)
  have hindex : ∀ i < userEntries, i ≠ PDX page := by
    intro i hi
    have hlo := hpage.1
    have hle := userEntries_lt.1
    omega
  have hpdeSame : ∀ d ∈ dirs, ∀ i < userEntries, s₁.entry d i = s.entry d i := fun d hd i hi =>
    hchange.pde d hd i hi (Or.inr (Or.inr (hindex i hi)))
  have hleafSame : ∀ d ∈ dirs, ∀ i < userEntries, ∀ j < NPTENTRIES,
      leaf s₁.entry d i j = leaf s.entry d i j := by
    intro d hd i hi j hj
    rw [hchange.leaf d hd i hi j hj, setLeaf_of_ne fun hno => hindex i hi hno.2.1]
  have hdata : IsData L dirs tables' pfn := by
    refine ⟨hfresh.notDir, fun hmem => ?_, hfresh.notKernel, hfresh.notGlobal⟩
    obtain ⟨d, hd, i, hi, howner⟩ := hledger.shape.owner pfn hmem
    rw [hpdeSame d hd i hi] at howner
    exact hfresh.notTable (h.shape.target_mem hd hi howner)
  -- the new directory is filled, while it is still a frame of data
  rw [hframe]
  have hram : ∀ y, y ≠ pfn → ((s₁.copyFrame pfn L.globalPgdir).setEntry pfn
      (PDX MMPAGETABLEAREA_START) (.make pfn PTE_W)).ram y = s₁.ram y := fun y hy =>
    (Function.update_of_ne hy ..).trans (Function.update_of_ne hy ..)
  have hother : ∀ y, y ≠ pfn → ((s₁.copyFrame pfn L.globalPgdir).setEntry pfn
      (PDX MMPAGETABLEAREA_START) (.make pfn PTE_W)).entry y = s₁.entry y := by
    intro y hy
    funext k
    exact congrArg MMPTE.mk (PhysicalMemory.word_congr (hram y hy) k)
  have hself : ((s₁.copyFrame pfn L.globalPgdir).setEntry pfn (PDX MMPAGETABLEAREA_START)
      (.make pfn PTE_W)).entry pfn selfEntry = .make pfn PTE_W := entry_setEntry_self
  have hcopy : ∀ k, k ≠ selfEntry → ((s₁.copyFrame pfn L.globalPgdir).setEntry pfn
      (PDX MMPAGETABLEAREA_START) (.make pfn PTE_W)).entry pfn k = s₁.entry L.globalPgdir k := by
    intro k hk
    exact (entry_setEntry_of_ne (Or.inr hk)).trans entry_copyFrame_self
  have hwritten := hledger.writeData hdata hram rfl rfl
  have hempty : ∀ i < kernelEntry, ((s₁.copyFrame pfn L.globalPgdir).setEntry pfn
      (PDX MMPAGETABLEAREA_START) (.make pfn PTE_W)).entry pfn i = ⟨0⟩ := by
    intro i hi
    have hne : i ≠ selfEntry := by
      have hlt : kernelEntry < selfEntry := by decide
      omega
    rw [hcopy i hne]
    exact hledger.shape.global i hi
  have hslot := hledger.shape.slot_mem (a := page) (Or.inr ⟨hpage, hchange.cr3 ▸ hcr⟩) hpde
  have htarget : (s₁.entry (s₁.pde page).PageFrameNumber (PTX page)).target = some pfn := by
    rw [show s₁.entry (s₁.pde page).PageFrameNumber (PTX page) = _ from hpte,
      target_make hfresh.managed (by decide)]
  refine ⟨tables', pfn, hwritten.addDir hfresh.managed hfresh.notDir hdata.notTable hempty
    (fun i hi => ?_) ?_ (fun y hy j hj heq => ?_)
    (hledger.page_managed hslot (PTX_lt page) htarget).2.2, hchange.cr3, hfresh.notDir, ?_,
    fun i hi => hempty i (Nat.lt_trans hi userEntries_lt.1), fun d hd i hi j hj => ?_,
    fun f hd ht hk => ?_⟩
  · rw [hcopy i hi.2.2, hother _ hdata.notGlobal.symm]
  · rw [hself]
    exact ⟨(MMPTE.make_fields pfn PTE_W).1,
      MMPTE.make_frame (L.bound pfn hfresh.managed).2 (by decide)⟩
  · -- what a process maps was mapped before, and the frame was free then
    have hyp : y ≠ pfn := fun heq' => hdata.notTable (heq' ▸ hy)
    rw [hother y hyp] at heq
    obtain ⟨d, hd, i, hi, howner⟩ := hledger.shape.owner y hy
    have hleaf : leaf s.entry d i j = some (s₁.entry y j) := by
      rw [← hleafSame d hd i hi j hj, leaf_of_table howner, if_pos (target_eq_some.mp heq).1]
    obtain ⟨u, hu, hentry, -⟩ := leaf_eq_some hleaf
    refine hfresh.unheld u (Or.inl (h.shape.target_mem hd hi hu)) j hj ?_
    rw [hentry, heq]
  · have hcr₁ : s₁.cr3 ≠ pfn := by
      rintro heq
      rcases hcr with hcr | hcr
      · exact hfresh.notDir (heq ▸ hchange.cr3 ▸ hcr)
      · exact hfresh.notGlobal (heq.symm.trans (hchange.cr3.trans hcr))
    have htable : (s₁.pde page).PageFrameNumber ≠ pfn := by
      rintro heq
      rw [heq] at hslot
      exact hslot.elim hdata.notTable hfresh.notKernel
    have hpdeNew : ((s₁.copyFrame pfn L.globalPgdir).setEntry pfn (PDX MMPAGETABLEAREA_START)
        (.make pfn PTE_W)).pde page = s₁.pde page := congrFun (hother _ hcr₁) _
    rw [State.physical, State.pte, hpdeNew, hother _ htable]
    exact hframe
  · rw [hledger.shape.leaf_writeData hdata hram hd hi, hleafSame d hd i hi j hj]
  · rw [Finset.mem_insert, not_or] at hd
    exact (hram f hd.1).trans (hchange.ram f hd.2 ht hk)

/-! ## The pages of a page table are removed -/

/-- **What has changed when pages of the loaded directory have been removed**: those with the index
`i` from `j` on. -/
structure PagesRemoved (L : Layout) (dirs tables : Finset Nat) (i j : Nat) (s s' : State) : Prop where
  cr3 : s'.cr3 = s.cr3
  pde : ∀ d ∈ dirs, ∀ i' < userEntries, (s.entry d i').Valid = true ∨ d ≠ s.cr3 ∨ i' ≠ i →
    s'.entry d i' = s.entry d i'
  leaf : ∀ d ∈ dirs, ∀ i' < userEntries, ∀ j' < NPTENTRIES, leaf s'.entry d i' j'
    = if d = s.cr3 ∧ i' = i ∧ j ≤ j' then none else leaf s.entry d i' j'
  ram : ∀ f, f ∉ dirs → f ∉ tables → f ∉ L.kernel → s'.ram f = s.ram f
  global : s'.entry L.globalPgdir = s.entry L.globalPgdir
  kernel : ∀ x ∈ L.kernel, ∀ j, s'.entry x j = s.entry x j ∨
    ∀ d ∈ dirs, (s'.entry x j).target ≠ some d

/-- **The inner loop of `MmDeleteProcessAddressSpace`.** -/
theorem Ledger.deletePagesLoop (h : Ledger L dirs tables held out s) (hcr : s.cr3 ∈ dirs)
    (hi : i < userEntries) (hpde : (s.entry s.cr3 i).Valid = true) (hj : j + n = NPTENTRIES)
    (hrun : deletePagesLoop s.cr3 n (pageAt i j) s = .ok s') :
    Ledger L dirs tables held out s' ∧ PagesRemoved L dirs tables i j s s' := by
  induction n generalizing j s with
  | zero =>
    cases hrun
    refine ⟨h, rfl, fun _ _ _ _ _ => rfl, fun d _ i' _ j' hj' => ?_, fun _ _ _ _ => rfl, rfl,
      fun _ _ _ => Or.inl rfl⟩
    rw [if_neg fun hno => by omega]
  | succ n ih =>
    obtain ⟨huser, hpdx, hptx⟩ := pageAt_user hi (j := j) (by omega)
    rw [Paging.deletePagesLoop, pageAt_succ] at hrun
    dsimp only at hrun
    split at hrun
    · obtain ⟨s₁, hremove, hrest⟩ := kernel_bind_eq_ok.mp hrun
      obtain ⟨hledger, hchange⟩ := h.miRemovePage (Or.inl ⟨huser, hcr⟩) (h.noDirectory huser hcr)
        hremove
      have hvalid : (s₁.entry s₁.cr3 i).Valid = true := by
        rw [hchange.cr3, hchange.pde _ hcr i hi (Or.inl hpde)]
        exact hpde
      obtain ⟨hledger', hrest'⟩ := ih (j := j + 1) hledger (hchange.cr3 ▸ hcr) hvalid
        (by omega) (by rw [hchange.cr3]; exact hrest)
      refine ⟨hledger', hrest'.cr3.trans hchange.cr3, fun d hd i' hi' hor => ?_,
        fun d hd i' hi' j' hj' => ?_, fun f hd ht hk => ?_, hrest'.global.trans hchange.global,
        fun x hx k => ?_⟩
      · have hfirst := hchange.pde d hd i' hi' (hpdx.symm ▸ hor)
        rw [← hchange.cr3, ← hfirst] at hor
        rw [hrest'.pde d hd i' hi' hor, hfirst]
      · rw [hrest'.leaf d hd i' hi' j' hj', hchange.leaf d hd i' hi' j' hj', hpdx, hptx, hchange.cr3]
        by_cases hslot : d = s.cr3 ∧ i' = i ∧ j' = j
        · obtain ⟨rfl, rfl, rfl⟩ := hslot
          rw [if_neg (by omega), if_pos ⟨rfl, rfl, Nat.le_refl _⟩, setLeaf_self]
        · rw [setLeaf_of_ne hslot]
          exact if_congr (by omega) rfl rfl
      · rw [hrest'.ram f hd ht hk, hchange.ram f hd ht hk]
      · rcases hrest'.kernel x hx k with heq | hno
        · rw [heq]
          exact hchange.kernel x hx k
        · exact Or.inr hno
    · rename_i hpte
      obtain ⟨hledger, hrest⟩ := ih h hcr hpde (by omega) hrun
      refine ⟨hledger, hrest.cr3, hrest.pde, fun d hd i' hi' j' hj' => ?_, hrest.ram, hrest.global,
        hrest.kernel⟩
      rw [hrest.leaf d hd i' hi' j' hj']
      by_cases hslot : d = s.cr3 ∧ i' = i ∧ j' = j
      · obtain ⟨rfl, rfl, rfl⟩ := hslot
        have hnone := leaf_of_pte (Bool.not_eq_true _ ▸ hpte)
        rw [hpdx, hptx] at hnone
        rw [if_neg (by omega), if_pos ⟨rfl, rfl, Nat.le_refl _⟩, hnone]
      · exact if_congr (by omega) rfl rfl

/-! ## A page table is removed -/

/-- The address of a page table in the page table area. -/
theorem pteAddress_index (hi : i < NPTENTRIES) :
    PDX (mmGetPteAddress (pageAt i 0)) = selfEntry ∧ PTX (mmGetPteAddress (pageAt i 0)) = i := by
  have hself : selfEntry = 768 := by decide
  simp only [PDX, PTX, mmGetPteAddress, pageAt, hself, PTSIZE, PGSIZE, NPTENTRIES,
    MMPAGETABLEAREA_START] at *
  omega

/-- **What has changed when page tables of the loaded directory have been removed**: those from `i` to
`n`. -/
structure TablesRemoved (L : Layout) (dirs tables tables' : Finset Nat) (i n : Nat) (s s' : State) :
    Prop where
  cr3 : s'.cr3 = s.cr3
  shrinks : tables' ⊆ tables
  pde : ∀ d ∈ dirs, ∀ i' < userEntries, s'.entry d i'
    = if d = s.cr3 ∧ i ≤ i' ∧ i' < n then ⟨0⟩ else s.entry d i'
  leaf : ∀ d ∈ dirs, d ≠ s.cr3 → ∀ i' < userEntries, ∀ j < NPTENTRIES,
    leaf s'.entry d i' j = leaf s.entry d i' j
  ram : ∀ f, f ∉ dirs → f ∉ tables → f ∉ L.kernel → s'.ram f = s.ram f
  global : s'.entry L.globalPgdir = s.entry L.globalPgdir
  kernel : ∀ x ∈ L.kernel, ∀ j, s'.entry x j = s.entry x j ∨
    ∀ d ∈ dirs, (s'.entry x j).target ≠ some d

/-- **The body of the outer loop of `MmDeleteProcessAddressSpace`.** -/
theorem Ledger.deleteTable (h : Ledger L dirs tables held out s) (hcr : s.cr3 ∈ dirs)
    (hi : i < userEntries) (hrun : deleteTable s.cr3 (pageAt i 0) s = .ok s') :
    ∃ tables', Ledger L dirs tables' held out s'
      ∧ TablesRemoved L dirs tables tables' i (i + 1) s s' := by
  obtain ⟨-, hpdx, -⟩ := pageAt_user hi (j := 0) (by decide)
  obtain ⟨_, -, hrun⟩ := kernel_bind_eq_ok.mp hrun
  rw [State.pde, hpdx] at hrun
  split at hrun
  · rename_i hpde
    obtain ⟨s₁, hpages, hrun⟩ := kernel_bind_eq_ok.mp hrun
    obtain ⟨hledger, hchange⟩ := h.deletePagesLoop hcr hi hpde (Nat.zero_add _) hpages
    obtain ⟨-, -, -, hs'⟩ := miRemovePage_ok hrun
    obtain ⟨hapdx, haptx⟩ := pteAddress_index (Nat.lt_trans hi (by decide))
    -- the page table area shows the page directory itself
    have hself : (s₁.pde (mmGetPteAddress (pageAt i 0))).PageFrameNumber = s.cr3 := by
      rw [State.pde, hapdx, hchange.cr3]
      exact (hledger.shape.self _ (Or.inl hcr)).2
    have hentry : s₁.entry s.cr3 i = s.entry s.cr3 i := hchange.pde _ hcr i hi (Or.inl hpde)
    have htarget : (s₁.entry s.cr3 i).target = some (s₁.entry s.cr3 i).PageFrameNumber :=
      target_of_valid (hentry ▸ hpde)
    rw [State.setPte, State.pte, hself, haptx] at hs'
    generalize ht : (s₁.entry s.cr3 i).PageFrameNumber = t at *
    have hmem := hledger.shape.target_mem hcr hi htarget
    have hclear : ∀ j < NPTENTRIES, (s₁.entry t j).target = none := by
      intro j hj
      have hnone := hchange.leaf _ hcr i hi j hj
      rw [if_pos ⟨rfl, rfl, Nat.zero_le j⟩, leaf_of_table htarget] at hnone
      split at hnone
      · cases hnone
      · rename_i hno
        exact if_neg hno
    have hremoved := hledger.removeTable hcr hi htarget hclear (fun _ => rfl)
    subst hs'
    refine ⟨tables.erase t, hremoved.dec (hledger.shape.tables_managed t hmem)
      (by rw [if_pos rfl]; omega) (fun hd => hledger.shape.apart t hd hmem) (fun _ => rfl),
      hchange.cr3, Finset.erase_subset t tables, fun d hd i' hi' => ?_,
      fun d hd hne i' hi' j hj => ?_, fun f hd ht hk => ?_, ?_, fun x hx j => ?_⟩
    · rw [entry_dec]
      by_cases hslot : d = s.cr3 ∧ i' = i
      · obtain ⟨rfl, rfl⟩ := hslot
        rw [entry_setEntry_self, if_pos ⟨rfl, Nat.le_refl _, Nat.lt_succ_self _⟩]
      · rw [entry_setEntry_of_ne (not_and_or.mp hslot), if_neg (by omega),
          hchange.pde d hd i' hi' (Or.inr (not_and_or.mp hslot))]
    · rw [entry_dec, entries_setEntry, leaf_removeTable hledger.shape.toDirectories hcr htarget hclear
        hd hi' hj, hchange.leaf d hd i' hi' j hj, if_neg fun hno => hne hno.1]
    · have hfc : f ≠ s.cr3 := fun heq => hd (heq ▸ hcr)
      exact (Function.update_of_ne hfc ..).trans (hchange.ram f hd ht hk)
    · rw [← hchange.global]
      funext k
      refine entry_setEntry_of_ne (Or.inl fun heq => ?_)
      exact L.global_notMem (heq ▸ h.shape.dirs_managed _ hcr)
    · have hxc : x ≠ s.cr3 := by
        rintro rfl
        exact (h.shape.table_apart (Or.inr hx)).1 hcr
      rw [entry_dec, entry_setEntry_of_ne (Or.inl hxc)]
      exact hchange.kernel x hx j
  · rename_i hpde
    obtain ⟨_, hzero, hrun⟩ := kernel_bind_eq_ok.mp hrun
    cases hrun
    refine ⟨tables, h, rfl, Finset.Subset.refl _, fun d hd i' hi' => ?_, fun _ _ _ _ _ _ _ => rfl,
      fun _ _ _ _ => rfl, rfl, fun _ _ _ => Or.inl rfl⟩
    by_cases hslot : d = s.cr3 ∧ i ≤ i' ∧ i' < i + 1
    · obtain ⟨rfl, hlo, hhi⟩ := hslot
      obtain rfl : i' = i := by omega
      rw [if_pos ⟨rfl, hlo, hhi⟩]
      exact MMPTE.ext (assert_eq_ok.mp hzero)
    · rw [if_neg hslot]

/-- **The outer loop of `MmDeleteProcessAddressSpace`.** -/
theorem Ledger.deleteLoop (h : Ledger L dirs tables held out s) (hcr : s.cr3 ∈ dirs)
    (hi : i + n = userEntries) (hrun : deleteLoop s.cr3 n (pageAt i 0) s = .ok s') :
    ∃ tables', Ledger L dirs tables' held out s'
      ∧ TablesRemoved L dirs tables tables' i userEntries s s' := by
  induction n generalizing i s tables with
  | zero =>
    cases hrun
    refine ⟨tables, h, rfl, Finset.Subset.refl _, fun d _ i' hi' => ?_, fun _ _ _ _ _ _ _ => rfl,
      fun _ _ _ _ => rfl, rfl, fun _ _ _ => Or.inl rfl⟩
    rw [if_neg fun hno => by omega]
  | succ n ih =>
    obtain ⟨s₁, hfirst, hrest⟩ := kernel_bind_eq_ok.mp hrun
    have hnext : pageAt i 0 + PTSIZE = pageAt (i + 1) 0 := by
      simp only [pageAt, PTSIZE, PGSIZE]
      omega
    obtain ⟨tables₁, hledger, hchange⟩ := h.deleteTable hcr (by omega) hfirst
    rw [hnext, ← hchange.cr3] at hrest
    obtain ⟨tables₂, hledger₂, hchange₂⟩ := ih hledger (hchange.cr3 ▸ hcr) (by omega) hrest
    refine ⟨tables₂, hledger₂, hchange₂.cr3.trans hchange.cr3, hchange₂.shrinks.trans hchange.shrinks,
      fun d hd i' hi' => ?_, fun d hd hne i' hi' j hj => ?_, fun f hd ht hk => ?_,
      hchange₂.global.trans hchange.global, fun x hx j => ?_⟩
    · rw [hchange₂.pde d hd i' hi', hchange.pde d hd i' hi', hchange.cr3]
      by_cases hrow : d = s.cr3 ∧ i ≤ i'
      · obtain ⟨rfl, hle⟩ := hrow
        have hin : s.cr3 = s.cr3 ∧ i ≤ i' ∧ i' < userEntries := ⟨rfl, hle, hi'⟩
        by_cases hlt : i + 1 ≤ i'
        · rw [if_pos ⟨rfl, hlt, hi'⟩, if_pos hin]
        · rw [if_neg fun hno => hlt hno.2.1, if_pos ⟨rfl, hle, by omega⟩, if_pos hin]
      · rw [if_neg fun hno => hrow ⟨hno.1, by omega⟩, if_neg fun hno => hrow ⟨hno.1, hno.2.1⟩,
          if_neg fun hno => hrow ⟨hno.1, hno.2.1⟩]
    · rw [hchange₂.leaf d hd (hchange.cr3 ▸ hne) i' hi' j hj, hchange.leaf d hd hne i' hi' j hj]
    · rw [hchange₂.ram f hd (fun hin => ht (hchange.shrinks hin)) hk, hchange.ram f hd ht hk]
    · rcases hchange₂.kernel x hx j with heq | hno
      · rw [heq]
        exact hchange.kernel x hx j
      · exact Or.inr hno

/-! ## An address space goes -/

/-- The entry at an address of the kernel half is the same in every address space. -/
theorem Ledger.kernel_pte (h : Ledger L dirs tables held out s)
    (hcr : s.cr3 ∈ dirs ∨ s.cr3 = L.globalPgdir) (ha : KernelIndex (PDX a)) :
    s.pte a = s.entry (s.entry L.globalPgdir (PDX a)).PageFrameNumber (PTX a)
      ∧ (s.entry L.globalPgdir (PDX a)).PageFrameNumber ∈ L.kernel := by
  refine ⟨?_, (h.shape.kernel _ ha).2⟩
  have hpde : s.pde a = s.entry L.globalPgdir (PDX a) := by
    rcases hcr with hcr | hcr
    · exact h.shape.half _ hcr _ ha
    · rw [State.pde, hcr]
  rw [State.pte, hpde]

/-- **`MmDeleteProcessAddressSpace` keeps the ledger.** -/
theorem Ledger.mmDeleteProcessAddressSpace (h : Ledger L dirs tables held out s)
    (hcr : s.cr3 ∈ dirs ∨ s.cr3 = L.globalPgdir) (hpage : KernelIndex (PDX page))
    (hend : page + PGSIZE ≤ ULONG_VALUES) (hd : s.physical page ∈ dirs)
    (hrun : mmDeleteProcessAddressSpace page s = .ok s') :
    s.physical page ≠ s.cr3 ∧ ∃ tables', Ledger L (dirs.erase (s.physical page)) tables' held out s'
      ∧ s'.cr3 = s.cr3
      ∧ (∀ d ∈ dirs, d ≠ s.physical page → ∀ i < userEntries, ∀ j < NPTENTRIES,
        leaf s'.entry d i j = leaf s.entry d i j)
      ∧ ∀ f, f ∉ dirs → f ∉ tables → f ∉ L.kernel → s'.ram f = s.ram f := by
  obtain ⟨_, hassert, hrun⟩ := kernel_bind_eq_ok.mp hrun
  have hne := assert_eq_ok.mp hassert
  refine ⟨hne, ?_⟩
  obtain ⟨s₁, hloop, hfree⟩ := kernel_bind_eq_ok.mp hrun
  have hattach : Ledger L dirs tables held out (mmAttachToAddressSpace (s.physical page) s) :=
    h.congr rfl rfl (fun _ _ => rfl) (fun _ _ => rfl)
  have hstart : (0 : Nat) = pageAt 0 0 := by decide
  rw [hstart] at hloop
  obtain ⟨tables₁, hledger, hchange⟩ := hattach.deleteLoop hd (Nat.zero_add _) hloop
  have hcr₁ : s₁.cr3 = s.physical page := hchange.cr3
  have hempty : ∀ i < userEntries, (s₁.entry (s.physical page) i).target = none := by
    intro i hi
    rw [hchange.pde _ hd i hi, if_pos ⟨rfl, Nat.zero_le i, hi⟩, target_zero]
  have hback : Ledger L (dirs.erase (s.physical page)) tables₁ held out
      (mmAttachToAddressSpace s.cr3 s₁) :=
    (hledger.removeDir hd hempty).congr rfl rfl (fun _ _ => rfl) (fun _ _ => rfl)
  have hcrBack : s.cr3 ∈ dirs.erase (s.physical page) ∨ s.cr3 = L.globalPgdir :=
    hcr.imp (fun hin => Finset.mem_erase.mpr ⟨hne.symm, hin⟩) id
  have hmap : Mappable L (dirs.erase (s.physical page)) (mmAttachToAddressSpace s.cr3 s₁) page :=
    Or.inr ⟨hpage, hcrBack⟩
  -- what is mapped at the page is the directory that is taken away, or no directory
  have hno : NoDirectory (dirs.erase (s.physical page)) (mmAttachToAddressSpace s.cr3 s₁) page := by
    intro _ hvalid hin
    obtain ⟨hpte, hmem⟩ := h.kernel_pte hcr hpage
    obtain ⟨hpte₁, -⟩ := hback.kernel_pte hcrBack hpage
    have hglobal : (mmAttachToAddressSpace s.cr3 s₁).entry L.globalPgdir = s.entry L.globalPgdir :=
      hchange.global
    rw [hglobal] at hpte₁
    obtain ⟨hother, hin⟩ := Finset.mem_erase.mp hin
    rcases hchange.kernel _ hmem (PTX page) with heq | hnone
    · refine hother ?_
      rw [hpte₁, State.physical, hpte]
      exact congrArg MMPTE.PageFrameNumber heq
    · rw [hpte₁] at hvalid hin
      exact hnone _ hin (target_of_valid hvalid)
  have hone : roundUp PGSIZE PGSIZE = PGSIZE := by decide
  obtain ⟨hfreed, hchange₂⟩ := hback.mmVirtualFree (by rw [hone]; exact hend) (fun k hk => by
    obtain rfl : k = 0 := by
      rw [roundUp_one] at hk
      omega
    rw [Nat.zero_mul, Nat.add_zero]
    exact ⟨hmap, hno⟩) hfree
  refine ⟨tables₁, hfreed, hchange₂.cr3, fun d hd' hother i hi j hj => ?_, fun f hd' ht hk => ?_⟩
  case refine_2 =>
    have hlast := hchange₂.ram f (fun hin => hd' (Finset.mem_of_mem_erase hin))
      (fun hin => ht (hchange.shrinks hin)) hk
    exact hlast.trans (hchange.ram f hd' ht hk)
  rw [hchange₂.others d (Finset.mem_erase.mpr ⟨hother, hd'⟩) i hi j hj fun _ hin => ?_]
  · exact hchange.leaf d hd' hother i hi j hj
  · rw [roundUp_one] at hin
    obtain ⟨k, hk, hpdx, -⟩ := hin
    obtain rfl : k = 0 := by omega
    rw [Nat.zero_mul, Nat.add_zero] at hpdx
    have hlo := hpage.1
    have hle := userEntries_lt.1
    omega

end KaushOS.Paging
