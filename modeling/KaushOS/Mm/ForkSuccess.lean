import KaushOS.Mm.AddressSpaces

/-! # A fork succeeds when there is memory

`MmCloneProcessAddressSpace` is full of assertions. With a fresh directory, two free frames for each page
table and a free page in the window, all of them hold and it returns `STATUS_SUCCESS`.

* **`Aside.mmMapPageTemp_returns`, `Ledger.mmUnMapPageTemp_returns`** — the window.
* **`Ledger.sharePagesLoop_returns`** — the pages of one page table.
* **`Ledger.fork_succeeds`** — the whole address space. -/

namespace KaushOS.Paging

variable {L : Layout} {dirs tables : Finset Nat} {held : Nat → Nat} {out : Finset Nat}
  {s s' : State} {a e i j k n pfn t : Nat} {rest : List Nat}

/-! ## The window -/

/-- A page of the window that is free can be mapped. -/
theorem Aside.miInsertPage_returns (h : Aside s t) (ha : IsUserAddress a)
    (hpte : (s.pde a).Valid = true → (s.pte a).Valid = false) (hpfn : pfn ≠ 0)
    (hfree : s.PfnFreeList ≠ []) :
    ∃ s', Paging.miInsertPage s.cr3 a pfn PTE_W s = .ok (.STATUS_SUCCESS, s')
      ∧ s.PfnFreeList.length ≤ s'.PfnFreeList.length + 1 := by
  cases hpde : (s.pde a).Valid with
  | true =>
    refine ⟨_, miInsertPage_there hpde (h.empty a ha hpde (hpte hpde)) hpfn, ?_⟩
    exact Nat.le_succ _
  | false =>
    cases hlist : s.PfnFreeList with
    | nil => exact absurd hlist hfree
    | cons u rest =>
      obtain ⟨hu, -, hcr⟩ := h.free u (hlist ▸ List.mem_cons_self ..)
      exact ⟨_, miInsertPage_new hpde ha hlist hu hcr hpfn, Nat.le_refl _⟩

/-- The loop over the window comes to a free page. -/
theorem Aside.mapPageTempLoop_returns (h : Aside s t) (hpfn : pfn ≠ 0) (hfree : s.PfnFreeList ≠ [])
    (hk : k + n = NPTENTRIES)
    (hslot : ∃ k', k ≤ k' ∧ k' < NPTENTRIES ∧ (s.pte (pageAt windowEntry k')).Valid = false) :
    ∃ k' s', Paging.mapPageTempLoop pfn n (pageAt windowEntry k) s
        = .ok (some (pageAt windowEntry k'), s')
      ∧ s.PfnFreeList.length ≤ s'.PfnFreeList.length + 1 := by
  induction n generalizing k with
  | zero =>
    obtain ⟨k', hlo, hhi, -⟩ := hslot
    omega
  | succ n ih =>
    rw [Paging.mapPageTempLoop]
    cases hpte : (s.pte (pageAt windowEntry k)).Valid with
    | true =>
      obtain ⟨k', hlo, hhi, hinvalid⟩ := hslot
      have hne : k' ≠ k := by
        rintro rfl
        rw [hpte] at hinvalid
        cases hinvalid
      rw [if_pos rfl, pageAt_succ]
      exact ih (by omega) ⟨k', by omega, hhi, hinvalid⟩
    | false =>
      obtain ⟨s', hinsert, hlen⟩ := h.miInsertPage_returns (pageAt_window (k := k) (by omega)).1
        (fun _ => hpte) hpfn hfree
      refine ⟨k, s', ?_, hlen⟩
      rw [if_neg (by decide), hinsert]
      rfl

/-- **`MmMapPageTemp` finds a free page.** -/
theorem Aside.mmMapPageTemp_returns (h : Aside s t) (hpfn : pfn ≠ 0) (hfree : s.PfnFreeList ≠ [])
    (hslot : (s.pde USERTEMP).Valid = true →
      ∃ k < NPTENTRIES, (s.pte (pageAt windowEntry k)).Valid = false) :
    ∃ k s', Paging.mmMapPageTemp pfn s = .ok (some (pageAt windowEntry k), s')
      ∧ s.PfnFreeList.length ≤ s'.PfnFreeList.length + 1 := by
  have hstart : pageAt windowEntry 0 = USERTEMP := by decide
  have hlen : (USERTEMPEND - USERTEMP) / PGSIZE = NPTENTRIES := by decide
  unfold Paging.mmMapPageTemp
  rw [hlen]
  cases hpde : (s.pde USERTEMP).Valid with
  | true =>
    rw [if_pos rfl, ← hstart]
    obtain ⟨k, hk, hinvalid⟩ := hslot hpde
    exact h.mapPageTempLoop_returns hpfn hfree (Nat.zero_add _) ⟨k, Nat.zero_le k, hk, hinvalid⟩
  | false =>
    obtain ⟨s', hinsert, hlen⟩ := h.miInsertPage_returns (a := USERTEMP) (by decide)
      (fun hvalid => by rw [hpde] at hvalid; cases hvalid) hpfn hfree
    refine ⟨0, s', ?_, hlen⟩
    rw [if_neg (by decide), hinsert, ← hstart]
    rfl

/-- **`MmUnMapPageTemp` takes a page table out of the window**, and frees nothing. -/
theorem Ledger.mmUnMapPageTemp_returns (h : Ledger L dirs tables held out s) (hcr : s.cr3 ∈ dirs)
    (hk : k < NPTENTRIES) (ht : t ∈ tables)
    (hwindow : ∃ w, leaf s.entry s.cr3 windowEntry k = some w ∧ w.PageFrameNumber = t) :
    ∃ s', Paging.mmUnMapPageTemp (pageAt windowEntry k) t s = .ok s'
      ∧ s'.PfnFreeList = s.PfnFreeList := by
  obtain ⟨w, hleaf, hframe⟩ := hwindow
  obtain ⟨huser, hpdx, hptx⟩ := pageAt_window hk
  obtain ⟨hpde, hpte, hvalid⟩ := pte_of_leaf (a := pageAt windowEntry k) (by rw [hpdx, hptx]; exact hleaf)
  have hpteValid : (s.pte (pageAt windowEntry k)).Valid = true := hpte.symm ▸ hvalid
  obtain ⟨hledger, -⟩ := h.removePage (Or.inl ⟨huser, hcr⟩) hpde hpteValid
    (h.noDirectory huser hcr hpde hpteValid)
  rw [hpte, hframe] at hledger
  have hused := (hledger.table_used ht).2
  have hrange : pageAt windowEntry k ≥ USERTEMP ∧ pageAt windowEntry k < USERTEMPEND := by
    have hentry : windowEntry = 1 := by decide
    simp only [pageAt, hentry, USERTEMP, USERTEMPEND, PTSIZE, PGSIZE, NPTENTRIES] at *
    omega
  have halign : pageAt windowEntry k % PGSIZE = 0 := by
    simp only [pageAt, PTSIZE, PGSIZE]
    omega
  have hno : ¬ ((s.pde (pageAt windowEntry k)).Valid = false
      ∨ (s.pte (pageAt windowEntry k)).Valid = false) := by
    rw [hpde, hpteValid]
    decide
  have hremove : Paging.miRemovePage s.cr3 (pageAt windowEntry k) s
      = .ok ((s.setPte (pageAt windowEntry k) ⟨0⟩).dec t) := by
    rw [Paging.miRemovePage, assert_of_true halign, kernel_ok_bind, if_neg (fun hno => hno.1 rfl),
      if_neg hno]
    simp only [miDecReferencePFN_eq, kernel_ok_bind, hpte, hframe]
    rfl
  refine ⟨(s.setPte (pageAt windowEntry k) ⟨0⟩).dec t, ?_, ?_⟩
  · rw [Paging.mmUnMapPageTemp, assert_of_true hrange.1, kernel_ok_bind, assert_of_true hrange.2,
      kernel_ok_bind, hremove, kernel_ok_bind, assert_of_true hused]
    rfl
  · have hcount : ((s.setPte (pageAt windowEntry k) ⟨0⟩).dec t).RefCount t
        = if s.RefCount t = 0 then ULONG_VALUES - 1 else s.RefCount t - 1 :=
      Function.update_self ..
    rw [hcount] at hused
    exact if_neg hused

/-! ## The pages of one page table -/

/-- **A page can be shared**: what is copied on a write is not writable. -/
theorem Ledger.sharePage_returns {b : Nat} (h : Ledger L dirs tables held out s)
    (ha : Mappable L dirs s a) (hpde : (s.pde a).Valid = true) :
    ∃ s', Paging.sharePage b a s = .ok s' := by
  unfold Paging.sharePage
  dsimp only
  split
  · rename_i hpte
    have hpage := (h.shape.pte_cases ha hpde).resolve_left fun hzero => by
      rw [hzero] at hpte
      cases hpte
    split
    · rename_i hcow
      rw [assert_of_true (hpage.copyOnWrite hcow)]
      exact ⟨_, rfl⟩
    · split <;> exact ⟨_, rfl⟩
  · exact ⟨_, rfl⟩

/-- **The pages of one page table can be shared.** -/
theorem Ledger.sharePagesLoop_returns (h : Ledger L dirs tables held out s)
    (hc : Cloning dirs s e i k t) (hj : j + n = NPTENTRIES)
    (hempty : ∀ j', j ≤ j' → j' < NPTENTRIES → leaf s.entry e i j' = none) :
    ∃ s', Paging.sharePagesLoop (pageAt windowEntry k) n (pageAt i j) s = .ok s' := by
  induction n generalizing j s with
  | zero => exact ⟨s, rfl⟩
  | succ n ih =>
    have hlt : j < NPTENTRIES := by omega
    obtain ⟨huser, hpdx, -⟩ := pageAt_user hc.index hlt
    obtain ⟨s₁, hshare⟩ := h.sharePage_returns (b := pageAt windowEntry k)
      (Or.inl ⟨huser, hc.cr3⟩) (by rw [State.pde, hpdx]; exact hc.source)
    obtain ⟨hledger, hchange⟩ := h.sharePage hc hlt (hempty j (Nat.le_refl j) hlt) hshare
    have hcloning := hc.shared hchange hlt fun p hp => by
      obtain ⟨u, -, hpage⟩ := h.shape.leaf_page hc.cr3 hc.index hlt hp
      exact hpage.copyOnWrite
    obtain ⟨s', hrest⟩ := ih hledger hcloning (j := j + 1) (by omega) fun j' hlo hhi => by
      rw [hchange.leaf e hc.new i hc.index j' hhi, setLeaf_of_ne fun hno => by omega,
        setLeaf_of_ne fun hno => by omega]
      exact hempty j' (by omega) hhi
    refine ⟨s', ?_⟩
    rw [Paging.sharePagesLoop, hshare, kernel_ok_bind, pageAt_succ]
    exact hrest

/-! ## All page tables -/

/-- Where there is no page, the entry is not valid. -/
theorem pte_of_leaf_none (h : leaf s.entry s.cr3 (PDX a) (PTX a) = none) (hpde : (s.pde a).Valid = true) :
    (s.pte a).Valid = false := by
  have ht : (s.entry s.cr3 (PDX a)).target = some (s.pde a).PageFrameNumber := target_of_valid hpde
  rw [leaf_of_table ht] at h
  split at h
  · cases h
  · rename_i hno
    exact Bool.not_eq_true _ ▸ hno

/-- **One page table can be copied**, with two free frames and a free page in the window. -/
theorem Ledger.cloneTable_returns (h : Ledger L dirs tables held out s) (hcr : s.cr3 ∈ dirs)
    (he : e ∈ dirs) (hne : e ≠ s.cr3) (hi : i < userEntries) (hzero : s.entry e i = ⟨0⟩)
    (hfree : 2 ≤ s.PfnFreeList.length)
    (hslot : ∃ k < NPTENTRIES, leaf s.entry s.cr3 windowEntry k = none) :
    ∃ s', Paging.cloneTable s.cr3 e (pageAt i 0) s = .ok (.STATUS_SUCCESS, s')
      ∧ s.PfnFreeList.length ≤ s'.PfnFreeList.length + 2 := by
  obtain ⟨-, hpdx, -⟩ := pageAt_user hi (j := 0) (by decide)
  have hnew : (s.entry e (PDX (pageAt i 0))).Long = 0 := by rw [hpdx, hzero]
  have hsource : (s.entry s.cr3 (PDX (pageAt i 0))).Long = (s.pde (pageAt i 0)).Long := rfl
  rw [Paging.cloneTable, assert_of_true hsource, kernel_ok_bind, assert_of_true hnew, kernel_ok_bind]
  rw [State.pde, hpdx]
  cases hpde : (s.entry s.cr3 i).Valid with
  | false => exact ⟨s, rfl, Nat.le_add_right ..⟩
  | true =>
    rw [if_pos rfl]
    cases hlist : s.PfnFreeList with
    | nil =>
      rw [hlist] at hfree
      cases hfree
    | cons t rest =>
      have hfresh := h.fresh (hlist ▸ List.mem_cons_self ..)
      have haside := h.aside (i := i) hcr he hne hlist
      have hrest : (s.linkTable e i t rest).PfnFreeList ≠ [] := by
        show rest ≠ []
        rintro rfl
        rw [hlist, List.length_singleton] at hfree
        omega
      have hwindowFree : ((s.linkTable e i t rest).pde USERTEMP).Valid = true →
          ∃ k < NPTENTRIES, ((s.linkTable e i t rest).pte (pageAt windowEntry k)).Valid = false := by
        intro hvalid
        obtain ⟨k, hk, hnone⟩ := hslot
        obtain ⟨huser, hvpdx, hvptx⟩ := pageAt_window hk
        have hvalid' : (s.pde (pageAt windowEntry k)).Valid = true := by
          rw [pde_linkTable hne] at hvalid
          rw [State.pde, hvpdx]
          exact hvalid
        refine ⟨k, hk, ?_⟩
        rw [h.shape.pte_linkTable hcr he hne huser hvalid']
        exact pte_of_leaf_none (by rw [hvpdx, hvptx]; exact hnone) hvalid'
      obtain ⟨k, s₁, hwindow, hlen⟩ := haside.mmMapPageTemp_returns
        (Nat.ne_of_gt (L.bound t hfresh.managed).1) hrest hwindowFree
      rcases h.openWindow hcr he hne hi hzero hlist hwindow with
        hno | ⟨k', tables₂, heq, hledger, hopen⟩
      · cases hno
      have hkk := Option.some.inj heq
      have hcloning := hopen.cloning hledger hcr he hne hi hpde
      obtain ⟨s₂, hshare⟩ := hledger.sharePagesLoop_returns hcloning (Nat.zero_add _)
        (hopen.empty he hne hi hzero)
      obtain ⟨hledger₂, hcloning₂, hchange₂⟩ := hledger.sharePagesLoop hcloning (Nat.zero_add _)
        (hopen.empty he hne hi hzero) hshare
      obtain ⟨s₃, hclose, hfreed⟩ := hledger₂.mmUnMapPageTemp_returns hcloning₂.cr3 hopen.slot
        (hledger₂.shape.target_mem he hi hcloning₂.target) hcloning₂.window
      refine ⟨s₃, ?_, ?_⟩
      · simp only [mmAllocatePFN, hlist]
        refine kernel_bind_eq_ok.mpr ⟨_, hwindow, ?_⟩
        dsimp only
        rw [hkk, hopen.frame hledger hcr he hne hi]
        refine kernel_bind_eq_ok.mpr ⟨_, hshare, ?_⟩
        exact kernel_bind_eq_ok.mpr ⟨_, hclose, rfl⟩
      · rw [hfreed, hchange₂.free]
        have hlink : (s.linkTable e i t rest).PfnFreeList.length = rest.length := rfl
        rw [hlink] at hlen
        show rest.length + 1 ≤ s₁.PfnFreeList.length + 2
        omega

/-- **All page tables can be copied**, with two free frames for each. -/
theorem Ledger.cloneLoop_returns (h : Ledger L dirs tables held out s) (hcr : s.cr3 ∈ dirs)
    (he : e ∈ dirs) (hne : e ≠ s.cr3) (hi : i + n = userEntries)
    (hzero : ∀ i' < userEntries, i ≤ i' → s.entry e i' = ⟨0⟩)
    (hfree : 2 * n ≤ s.PfnFreeList.length)
    (hslot : ∃ k < NPTENTRIES, leaf s.entry s.cr3 windowEntry k = none) :
    ∃ s', Paging.cloneLoop s.cr3 e n (pageAt i 0) s = .ok (.STATUS_SUCCESS, s') := by
  induction n generalizing i s tables with
  | zero => exact ⟨s, rfl⟩
  | succ n ih =>
    have hlt : i < userEntries := by omega
    have hnext : pageAt i 0 + PTSIZE = pageAt (i + 1) 0 := by
      simp only [pageAt, PTSIZE, PGSIZE]
      omega
    obtain ⟨s₁, hfirst, hlen⟩ := h.cloneTable_returns hcr he hne hlt (hzero i hlt (Nat.le_refl i))
      (by omega) hslot
    rw [Paging.cloneLoop, hfirst, kernel_ok_bind]
    dsimp only
    rw [hnext]
    obtain ⟨-, hcases⟩ := h.cloneTable hcr he hne hlt hfirst
    rcases hcases with ⟨-, -, rfl⟩ | ⟨hno, -⟩ | ⟨-, -, tables₁, k, t, hledger, hchange⟩
    · exact ih h hcr hne (by omega) (fun i' hi' hle => hzero i' hi' (by omega)) (by omega) hslot
    · cases hno
    · rw [← hchange.cr3]
      refine ih hledger (hchange.cr3 ▸ hcr) (hchange.cr3 ▸ hne) (by omega) (fun i' hi' hle => ?_)
        (by omega) ?_
      · rw [hchange.pde e he i' hi' (Or.inl hne) (Or.inr (by omega))]
        exact hzero i' hi' (by omega)
      · obtain ⟨k', hk', hnone⟩ := hslot
        refine ⟨k', hk', ?_⟩
        rw [hchange.cr3, hchange.kept _ hcr hne.symm _ (by decide) k' hk', hnone, Option.map_none,
          ite_self]

/-- **A fork succeeds**: into a fresh directory, with two free frames for each page table and a free
page in the window. -/
theorem Ledger.fork_succeeds (h : Ledger L dirs tables held out s) (hcr : s.cr3 ∈ dirs)
    (he : e ∈ dirs) (hne : e ≠ s.cr3) (hzero : ∀ i < userEntries, s.entry e i = ⟨0⟩)
    (hfree : 2 * userEntries ≤ s.PfnFreeList.length)
    (hslot : ∃ k < NPTENTRIES, leaf s.entry s.cr3 windowEntry k = none) :
    ∃ s', Paging.mmCloneProcessAddressSpace s.cr3 e s = .ok (.STATUS_SUCCESS, s') := by
  have hstart : (0 : Nat) = pageAt 0 0 := by decide
  obtain ⟨s', hloop⟩ := h.cloneLoop_returns hcr he hne (Nat.zero_add _)
    (fun i' hi' _ => hzero i' hi') hfree hslot
  refine ⟨s', ?_⟩
  rw [Paging.mmCloneProcessAddressSpace, assert_of_true hne, kernel_ok_bind, assert_of_true rfl,
    kernel_ok_bind]
  exact hstart ▸ hloop

end KaushOS.Paging
