import KaushOS.Mm.PageRanges

/-! # The window and page faults

`MmMapPageTemp` maps a frame at the first free page of a window in the user half, for which it may
have to add a page table, and `MmUnMapPageTemp` takes it out again. `MmPfHandler` gives a process a frame
of its own.

* **`Ledger.mmMapPageTemp`, `Ledger.mmUnMapPageTemp`** — the window.
* **`Ledger.ownPage`** — the only process that holds a shared frame gets it for writing.
* **`Ledger.breakSharing`** — the others get a copy.
* **`Ledger.mmPfHandler`** — the ledger is kept by every page fault. -/

namespace KaushOS.Paging

variable {L : Layout} {dirs tables tables' : Finset Nat} {held : Nat → Nat} {out : Finset Nat}
  {s s' : State} {a f g i j k n v page perm : Nat} {r : Option Nat}

/-! ## The window -/

/-- The index of the window in a page directory. -/
def windowEntry : Nat := PDX USERTEMP

/-- The pages of the window. -/
theorem pageAt_window (hk : k < NPTENTRIES) : IsUserAddress (pageAt windowEntry k)
    ∧ PDX (pageAt windowEntry k) = windowEntry ∧ PTX (pageAt windowEntry k) = k := by
  have hentry : windowEntry = 1 := by decide
  refine ⟨?_, PDX_pageAt (by rw [hentry]; decide) hk, PTX_pageAt hk⟩
  simp only [IsUserAddress, pageAt, hentry, PTSIZE, PGSIZE, USERTOP, NPTENTRIES] at *
  omega

/-- The next page. -/
theorem pageAt_succ (i j : Nat) : pageAt i j + PGSIZE = pageAt i (j + 1) := by
  simp only [pageAt, PTSIZE, PGSIZE]
  omega

/-- **A frame that may be mapped in the window**: no process may write it. -/
structure Shareable (L : Layout) (dirs tables : Finset Nat) (s : State) (page : Nat) : Prop where
  managed : page ∈ L.managed
  notFree : page ∉ s.PfnFreeList
  notDir : page ∉ dirs
  readers : ∀ t ∈ tables, ∀ j < NPTENTRIES, (s.entry t j).target = some page →
    (s.entry t j).UserPriv = true → (s.entry t j).Writable = false

/-- It may be mapped for the kernel. -/
theorem Shareable.insertable (h : Shareable L dirs tables s page) :
    Insertable L dirs tables s a page PTE_W :=
  ⟨h.managed, h.notFree, h.notDir, by decide, by decide, fun hu => absurd hu (by decide), h.readers⟩

/-- **One page of the window.** -/
theorem Ledger.windowPage (h : Ledger L dirs tables held out s) (hcr : s.cr3 ∈ dirs)
    (hpage : Shareable L dirs tables s page) (hk : k < NPTENTRIES)
    (hv : (s.pde (pageAt windowEntry k)).Valid = true → (s.pte (pageAt windowEntry k)).Valid = false)
    {status : KSTATUS}
    (hrun : miInsertPage s.cr3 (pageAt windowEntry k) page PTE_W s = .ok (status, s')) :
    (status = .STATUS_NO_MEMORY ∧ s' = s)
      ∨ status = .STATUS_SUCCESS ∧ leaf s.entry s.cr3 windowEntry k = none
        ∧ ∃ tables', Ledger L dirs tables' held (out.erase page) s'
          ∧ Remapped L dirs tables tables' (pageAt windowEntry k) (some (.make page PTE_W)) s s' := by
  obtain ⟨huser, hpdx, hptx⟩ := pageAt_window hk
  have hleaf : leaf s.entry s.cr3 windowEntry k = none := by
    cases hpde : (s.pde (pageAt windowEntry k)).Valid with
    | true =>
      have hnone := leaf_of_pte (hv hpde)
      rwa [hpdx, hptx] at hnone
    | false =>
      rw [State.pde, hpdx] at hpde
      refine leaf_of_none ?_
      rw [MMPTE.target, if_neg (by rw [hpde]; decide)]
  rcases h.insertPage (Or.inl ⟨huser, hcr⟩) hpage.insertable
      (fun hpde hpte => by rw [hv hpde] at hpte; cases hpte) hrun with
    ⟨hstatus, hsame, -⟩ | ⟨hstatus, htables⟩
  · exact Or.inl ⟨hstatus, hsame⟩
  · exact Or.inr ⟨hstatus, hleaf, htables⟩

/-- What `MmMapPageTemp` has done when it returns. -/
def WindowMapped (L : Layout) (dirs tables : Finset Nat) (held : Nat → Nat) (out : Finset Nat)
    (page : Nat) (s : State) (r : Option Nat) (s' : State) : Prop :=
  (r = none ∧ s' = s) ∨ ∃ k < NPTENTRIES, r = some (pageAt windowEntry k)
    ∧ leaf s.entry s.cr3 windowEntry k = none
    ∧ ∃ tables', Ledger L dirs tables' held (out.erase page) s'
      ∧ Remapped L dirs tables tables' (pageAt windowEntry k) (some (.make page PTE_W)) s s'

/-- The loop over the window. -/
theorem Ledger.mapPageTempLoop (h : Ledger L dirs tables held out s) (hcr : s.cr3 ∈ dirs)
    (hpage : Shareable L dirs tables s page) (hk : k + n = NPTENTRIES)
    (hrun : mapPageTempLoop page n (pageAt windowEntry k) s = .ok (r, s')) :
    WindowMapped L dirs tables held out page s r s' := by
  induction n generalizing k with
  | zero =>
    cases hrun
    exact Or.inl ⟨rfl, rfl⟩
  | succ n ih =>
    rw [Paging.mapPageTempLoop] at hrun
    split at hrun
    · rw [pageAt_succ] at hrun
      exact ih (by omega) hrun
    · rename_i hfree
      obtain ⟨⟨status, s₁⟩, hinsert, hreturn⟩ := kernel_bind_eq_ok.mp hrun
      rcases h.windowPage hcr hpage (by omega) (fun _ => Bool.not_eq_true _ ▸ hfree) hinsert with
        ⟨rfl, rfl⟩ | ⟨rfl, hleaf, htables⟩
      · cases hreturn
        exact Or.inl ⟨rfl, rfl⟩
      · cases hreturn
        exact Or.inr ⟨k, by omega, rfl, hleaf, htables⟩

/-- **`MmMapPageTemp`** maps the frame at a page of the window that was free. -/
theorem Ledger.mmMapPageTemp (h : Ledger L dirs tables held out s) (hcr : s.cr3 ∈ dirs)
    (hpage : Shareable L dirs tables s page) (hrun : mmMapPageTemp page s = .ok (r, s')) :
    WindowMapped L dirs tables held out page s r s' := by
  have hstart : pageAt windowEntry 0 = USERTEMP := by decide
  have hlen : (USERTEMPEND - USERTEMP) / PGSIZE = NPTENTRIES := by decide
  unfold Paging.mmMapPageTemp at hrun
  rw [hlen, ← hstart] at hrun
  split at hrun
  · exact h.mapPageTempLoop hcr hpage (Nat.zero_add _) hrun
  · rename_i hpde
    obtain ⟨⟨status, s₁⟩, hinsert, hreturn⟩ := kernel_bind_eq_ok.mp hrun
    rcases h.windowPage hcr hpage (by decide) (fun hvalid => absurd hvalid hpde) hinsert with
      ⟨rfl, rfl⟩ | ⟨rfl, hleaf, htables⟩
    · cases hreturn
      exact Or.inl ⟨rfl, rfl⟩
    · cases hreturn
      exact Or.inr ⟨0, by decide, rfl, hleaf, htables⟩

/-- **`MmUnMapPageTemp`.** -/
theorem Ledger.mmUnMapPageTemp (h : Ledger L dirs tables held out s) (hcr : s.cr3 ∈ dirs)
    (hv : IsUserAddress v) (hrun : mmUnMapPageTemp v page s = .ok s') :
    Ledger L dirs tables held out s' ∧ Remapped L dirs tables tables v none s s' := by
  obtain ⟨_, -, hrun⟩ := kernel_bind_eq_ok.mp hrun
  obtain ⟨_, -, hrun⟩ := kernel_bind_eq_ok.mp hrun
  obtain ⟨s₁, hremove, hrun⟩ := kernel_bind_eq_ok.mp hrun
  obtain ⟨_, -, hrun⟩ := kernel_bind_eq_ok.mp hrun
  cases hrun
  exact h.miRemovePage (Or.inl ⟨hv, hcr⟩) (h.noDirectory hv hcr) hremove

/-! ## Page faults -/

/-- A page whose permissions are changed. -/
theorem Layout.Page.adjust {x : Nat} {p q : MMPTE} (h : L.Page dirs tables x p)
    (hvalid : q.Valid = p.Valid) (huser : q.UserPriv = p.UserPriv)
    (hframe : q.PageFrameNumber = p.PageFrameNumber)
    (hcow : q.CopyOnWrite = true → q.Writable = false) : L.Page dirs tables x q := by
  refine ⟨hvalid.trans h.valid, hframe ▸ h.managed, hcow, fun hu => ?_, fun hx => ?_⟩
  · rw [hframe]
    exact h.user (huser ▸ hu)
  · rw [hframe]
    exact h.notDir hx

/-- **The permissions of a page are changed.** -/
theorem Ledger.adjust {q : MMPTE} (h : Ledger L dirs tables held out s) (ha : Mappable L dirs s a)
    (hpde : (s.pde a).Valid = true) (hpte : (s.pte a).Valid = true)
    (hdir : (s.pte a).PageFrameNumber ∉ dirs) (hvalid : q.Valid = (s.pte a).Valid)
    (huser : q.UserPriv = (s.pte a).UserPriv)
    (hframe : q.PageFrameNumber = (s.pte a).PageFrameNumber)
    (hcow : q.CopyOnWrite = true → q.Writable = false)
    (hexclusive : q.UserPriv = true → q.Writable = true →
      s.RefCount (s.pte a).PageFrameNumber = 1) :
    Ledger L dirs tables held out (s.setPte a q)
      ∧ Remapped L dirs tables tables a (some q) s (s.setPte a q) := by
  have hpage : L.Page dirs tables (s.pde a).PageFrameNumber (s.pte a) := by
    refine (h.shape.pte_cases ha hpde).resolve_left fun hzero => ?_
    rw [hzero] at hpte
    cases hpte
  have hq : q.Valid = true := hvalid.trans hpte
  have htarget : q.target = (s.entry (s.pde a).PageFrameNumber (PTX a)).target := by
    rw [target_of_valid hq, hframe]
    exact (target_of_valid hpte).symm
  constructor
  · refine h.storePage (h.shape.slot_mem ha hpde) (PTX_lt a)
      (Or.inr (hpage.adjust hvalid huser hframe hcow)) (fun _ hu hw => ?_) fun g => by rw [htarget]
    rw [hframe]
    exact hexclusive hu hw
  · have hchange := h.shape.remapped ha hpde (p := q) fun d hd heq => by
      rw [target_of_valid hq, hframe] at heq
      exact hdir (Option.some.inj heq ▸ hd)
    rwa [if_pos hq] at hchange

/-- **The only process that holds a shared frame gets it for writing.** -/
theorem Ledger.ownPage (h : Ledger L dirs tables held out s) (hcr : s.cr3 ∈ dirs)
    (ha : IsUserAddress a) (hpde : (s.pde a).Valid = true) (hpte : (s.pte a).Valid = true)
    (hw : (s.pte a).Writable = false) (hone : s.RefCount (s.pte a).PageFrameNumber = 1)
    (hs' : s' = (s.setPte a ((s.pte a).setCopyOnWrite false)).setPte a
      (((s.setPte a ((s.pte a).setCopyOnWrite false)).pte a).setWritable true)) :
    Ledger L dirs tables held out s'
      ∧ Remapped L dirs tables tables a (some (((s.pte a).setCopyOnWrite false).setWritable true)) s s'
      := by
  have hmap : Mappable L dirs s a := Or.inl ⟨ha, hcr⟩
  have hdir := h.noDirectory ha hcr hpde hpte
  have hne := h.shape.slot_ne hmap hpde
  obtain ⟨hvalid, hwritable, huser, hcow, hframe⟩ := (s.pte a).setCopyOnWrite_fields false
  obtain ⟨hledger, hchange⟩ := h.adjust (q := (s.pte a).setCopyOnWrite false) hmap hpde hpte hdir
    hvalid huser hframe (fun hc => by rw [hcow] at hc; cases hc)
    (fun _ hw' => by rw [hwritable, hw] at hw'; cases hw')
  have hpde' : (s.setPte a ((s.pte a).setCopyOnWrite false)).pde a = s.pde a := pde_setPte _ a hne
  have hpte' : (s.setPte a ((s.pte a).setCopyOnWrite false)).pte a
      = (s.pte a).setCopyOnWrite false := pte_setPte _ hne
  obtain ⟨hvalid₂, -, huser₂, hcow₂, hframe₂⟩ :=
    ((s.pte a).setCopyOnWrite false).setWritable_fields true
  rw [hpte'] at hs'
  obtain ⟨hledger₂, hchange₂⟩ := hledger.adjust (a := a)
    (q := ((s.pte a).setCopyOnWrite false).setWritable true) hmap (hpde' ▸ hpde)
    (by rw [hpte', hvalid, hpte]) (by rw [hpte', hframe]; exact hdir) (by rw [hpte', hvalid₂])
    (by rw [hpte', huser₂]) (by rw [hpte', hframe₂])
    (fun hc => by rw [hcow₂, hcow] at hc; cases hc) (fun _ _ => by rw [hpte', hframe]; exact hone)
  rw [← hs'] at hledger₂ hchange₂
  exact ⟨hledger₂, hchange.trans hchange₂⟩

/-- **A frame on which a reference is held** may be mapped in the window. -/
theorem Ledger.shareable_of_held (h : Ledger L dirs tables held out s) (hf : f ∈ L.managed)
    (hheld : 0 < held f) (hdir : f ∉ dirs) : Shareable L dirs tables s f := by
  have hcount := h.count f hf
  refine ⟨hf, fun hin => ?_, hdir, fun t ht j hj he hu => ?_⟩
  · have hzero := (h.free f hin).2.1
    omega
  · rw [← Bool.not_eq_true]
    intro hw
    obtain ⟨hvalid, hframe⟩ := target_eq_some.mp he
    have hone := h.exclusive t ht j hj hvalid hu hw
    have hpos := refs_pos h.shape.toDirectories (Or.inl ht) hj he
    rw [hframe] at hone
    omega

/-- Rounding up what is aligned already. -/
theorem roundUp_page (ha : a % PGSIZE = 0) (hbound : a + PGSIZE ≤ ULONG_VALUES) :
    roundUp a PGSIZE = a := by
  simp only [roundUp, ulongSub, ulongAdd, ULONG_VALUES, PGSIZE] at *
  omega

/-- **A segment of one page** is one page. -/
theorem mmMapSegment_page {d : Nat} (ha : IsUserAddress a) (halign : a % PGSIZE = 0)
    (hrun : mmMapSegment d a PGSIZE perm s = .ok s') : ∃ pfn rest, s.PfnFreeList = pfn :: rest
      ∧ miInsertPage d a pfn perm { s with PfnFreeList := rest } = .ok (.STATUS_SUCCESS, s') := by
  have hsum : ulongAdd a PGSIZE = a + PGSIZE := by
    simp only [ulongAdd, ULONG_VALUES, IsUserAddress, USERTOP, PGSIZE] at *
    omega
  have hend : roundUp (a + PGSIZE) PGSIZE = a + PGSIZE := by
    refine roundUp_page ?_ ?_
    · rw [Nat.add_mod_right]
      exact halign
    · simp only [ULONG_VALUES, IsUserAddress, USERTOP, PGSIZE] at *
      omega
  have hstart : roundDown a PGSIZE = a := by
    rw [roundDown, halign, Nat.sub_zero]
  have hone : (a + PGSIZE - a) / PGSIZE = 1 := by
    rw [Nat.add_sub_cancel_left]
    decide
  rw [mmMapSegment, hsum, hend, hstart, hone, Paging.mapSegmentLoop] at hrun
  cases hfree : s.PfnFreeList with
  | nil =>
    simp only [mmAllocatePFN, hfree] at hrun
    cases hrun
  | cons pfn rest =>
    simp only [mmAllocatePFN, hfree] at hrun
    obtain ⟨⟨status, s₁⟩, hinsert, hrun⟩ := kernel_bind_eq_ok.mp hrun
    cases status with
    | STATUS_NO_MEMORY => cases hrun
    | STATUS_SUCCESS =>
      cases hrun
      exact ⟨pfn, rest, rfl, hinsert⟩

/-- **What `MmPfHandler` changes**: the page at `a` becomes a page of the process's own, with the same
contents. A page of the window has no contents that are kept: the page itself may be taken for the
window. -/
structure Owned (L : Layout) (dirs tables tables' : Finset Nat) (a : Nat) (s s' : State) : Prop where
  cr3 : s'.cr3 = s.cr3
  grows : tables ⊆ tables'
  others : ∀ d ∈ dirs, ∀ i < userEntries, ∀ j < NPTENTRIES, ¬ (d = s.cr3 ∧ i = PDX a ∧ j = PTX a) →
    leaf s'.entry d i j = leaf s.entry d i j
  contents : PDX a ≠ windowEntry → (s.pte a).UserPriv = true → ∀ d ∈ dirs, ∀ i < userEntries,
    ∀ j < NPTENTRIES, s'.contents d i j = s.contents d i j
  own : PDX a ≠ windowEntry → (s.pte a).UserPriv = true →
    ∃ p, leaf s'.entry s.cr3 (PDX a) (PTX a) = some p ∧ p.UserPriv = true ∧ p.Writable = true
  confined : Confined L s s'

/-- **A copy has been made** of the frame of the page at `a`: the page has been removed, its frame has
been mapped at the page `k` of the window, the frame `g` has been mapped at `a` and filled, and the
window has been closed. -/
structure Copied (L : Layout) (dirs tables tables₃ tables₄ : Finset Nat) (a k g : Nat)
    (s s₂ s₃ s₄ s' : State) : Prop where
  slot : k < NPTENTRIES
  removed : Remapped L dirs tables tables a none s s₂
  free : leaf s₂.entry s₂.cr3 windowEntry k = none
  opened : Remapped L dirs tables tables₃ (pageAt windowEntry k)
    (some (.make (s.pte a).PageFrameNumber PTE_W)) s₂ s₃
  mapped : Remapped L dirs tables₃ tables₄ a (some (.make g (PTE_U ||| PTE_W))) s₃ s₄
  managed : g ∈ L.managed
  data : IsData L dirs tables₄ g
  closed : Remapped L dirs tables₄ tables₄ (pageAt windowEntry k) none
    (s₄.copyFrame g (s₄.pte (pageAt windowEntry k)).PageFrameNumber) s'

section Copied

variable {tables₃ tables₄ : Finset Nat} {s₂ s₃ s₄ : State}

/-- The loaded directory stays. -/
theorem Copied.cr3 (h : Copied L dirs tables tables₃ tables₄ a k g s s₂ s₃ s₄ s') :
    s₂.cr3 = s.cr3 ∧ s₃.cr3 = s.cr3 ∧ s₄.cr3 = s.cr3 ∧ s'.cr3 = s.cr3 := by
  have h₃ := h.opened.cr3.trans h.removed.cr3
  have h₄ := h.mapped.cr3.trans h₃
  exact ⟨h.removed.cr3, h₃, h₄, h.closed.cr3.trans h₄⟩

/-- **What the address spaces map** before the window is closed. -/
theorem Copied.leaf_mapped {d : Nat} (h : Copied L dirs tables tables₃ tables₄ a k g s s₂ s₃ s₄ s')
    (hd : d ∈ dirs) (hi : i < userEntries) (hj : j < NPTENTRIES)
    (hother : ¬ (d = s.cr3 ∧ i = PDX a ∧ j = PTX a))
    (hwindow : ¬ (d = s.cr3 ∧ i = windowEntry ∧ j = k)) :
    leaf s₄.entry d i j = leaf s.entry d i j := by
  obtain ⟨hcr₂, hcr₃, -, -⟩ := h.cr3
  obtain ⟨-, hpdx, hptx⟩ := pageAt_window h.slot
  rw [h.mapped.leaf d hd i hi j hj, hcr₃, setLeaf_of_ne hother, h.opened.leaf d hd i hi j hj, hpdx, hptx,
    hcr₂, setLeaf_of_ne hwindow, h.removed.leaf d hd i hi j hj, setLeaf_of_ne hother]

/-- Filling the frame changes no page. -/
theorem Copied.leaf_closed {d : Nat} (h : Copied L dirs tables tables₃ tables₄ a k g s s₂ s₃ s₄ s')
    (hs : Shape L dirs tables₄ s₄.entry) (hd : d ∈ dirs) (hi : i < userEntries) (hj : j < NPTENTRIES) :
    leaf s'.entry d i j = setLeaf (leaf s₄.entry) s.cr3 windowEntry k none d i j := by
  obtain ⟨-, hpdx, hptx⟩ := pageAt_window h.slot
  have hlast := h.closed.leaf d hd i hi j hj
  rw [hpdx, hptx, show (s₄.copyFrame _ _).cr3 = s.cr3 from h.cr3.2.2.1] at hlast
  rw [hlast, setLeaf, setLeaf, hs.leaf_writeData h.data (fun x hx => Function.update_of_ne hx ..) hd hi]

/-- **Every other page is as it was**: the page of the window was free before, and is free again. -/
theorem Copied.others {d : Nat} (h : Copied L dirs tables tables₃ tables₄ a k g s s₂ s₃ s₄ s')
    (hs : Shape L dirs tables₄ s₄.entry) (hd : d ∈ dirs) (hi : i < userEntries) (hj : j < NPTENTRIES)
    (hother : ¬ (d = s.cr3 ∧ i = PDX a ∧ j = PTX a)) : leaf s'.entry d i j = leaf s.entry d i j := by
  rw [h.leaf_closed hs hd hi hj]
  by_cases hslot : d = s.cr3 ∧ i = windowEntry ∧ j = k
  · have hfree := h.free
    obtain ⟨rfl, rfl, rfl⟩ := hslot
    rw [h.cr3.1, h.removed.leaf _ hd _ hi _ hj, setLeaf_of_ne hother] at hfree
    rw [setLeaf_self, hfree]
  · rw [setLeaf_of_ne hslot, h.leaf_mapped hd hi hj hother hslot]

/-- **A frame that is not used for page tables** has kept its bytes before the new frame is filled. -/
theorem Copied.ram (h : Copied L dirs tables tables₃ tables₄ a k g s s₂ s₃ s₄ s') (hd : f ∉ dirs)
    (ht : f ∉ tables₄) (hk : f ∉ L.kernel) : s₄.ram f = s.ram f
      ∧ s'.ram f = (s₄.copyFrame g (s₄.pte (pageAt windowEntry k)).PageFrameNumber).ram f := by
  have ht₃ : f ∉ tables₃ := fun hin => ht (h.mapped.grows hin)
  have ht₂ : f ∉ tables := fun hin => ht₃ (h.opened.grows hin)
  refine ⟨?_, h.closed.ram f hd ht hk⟩
  rw [h.mapped.ram f hd ht hk, h.opened.ram f hd ht₃ hk, h.removed.ram f hd ht₂ hk]

/-- Nothing that is not managed has been written. -/
theorem Copied.confined (h : Copied L dirs tables tables₃ tables₄ a k g s s₂ s₃ s₄ s')
    (hs : Directories L dirs tables₄ s₄.entry) : Confined L s s' := by
  intro f hf hk
  obtain ⟨hfirst, hlast⟩ := h.ram (fun hd => hf (hs.dirs_managed f hd))
    (fun ht => hf (hs.tables_managed f ht)) hk
  have hfg : f ≠ g := fun heq => hf (heq ▸ h.managed)
  exact hlast.trans ((Function.update_of_ne hfg ..).trans hfirst)

/-- **The other user pages keep their contents.** -/
theorem Copied.contents_other {d : Nat}
    (h : Copied L dirs tables tables₃ tables₄ a k g s s₂ s₃ s₄ s') (ha : IsUserAddress a)
    (hcr : s.cr3 ∈ dirs) (hs : Ledger L dirs tables₄ held out s₄) (hd : d ∈ dirs)
    (hi : i < userEntries) (hj : j < NPTENTRIES)
    (hother : ¬ (d = s.cr3 ∧ i = PDX a ∧ j = PTX a)) : s'.contents d i j = s.contents d i j := by
  refine contents_of_leaf id (by rw [h.others hs.shape hd hi hj hother, Option.map_id, id])
    (fun _ _ => ⟨rfl, rfl⟩) fun p hp hu => ?_
  have hwindow : ¬ (d = s.cr3 ∧ i = windowEntry ∧ j = k) := by
    rintro ⟨rfl, rfl, rfl⟩
    have hfree := h.free
    rw [h.cr3.1, h.removed.leaf _ hd _ hi _ hj, setLeaf_of_ne hother, hp] at hfree
    cases hfree
  have hpage : leaf s₄.entry d i j = some p := (h.leaf_mapped hd hi hj hother hwindow).trans hp
  obtain ⟨hdata, -⟩ := hs.shape.isData hd hi hj hpage hu
  -- the new frame is mapped once
  have hnew : leaf s₄.entry s.cr3 (PDX a) (PTX a) = some (.make g (PTE_U ||| PTE_W)) := by
    rw [h.mapped.leaf _ hcr _ (PDX_user ha) _ (PTX_lt a), h.cr3.2.1, setLeaf_self]
  have hfg : p.PageFrameNumber ≠ g := by
    intro heq
    refine hother (hs.leaf_unique hcr (PDX_user ha) (PTX_lt a) hnew
      ((MMPTE.make_fields g _).2.2.1.trans (by decide)) ((MMPTE.make_fields g _).2.1.trans (by decide))
      hd hi hj hpage ?_)
    rw [heq, MMPTE.make_frame (L.bound g h.managed).2 (by decide)]
  obtain ⟨hfirst, hlast⟩ := h.ram hdata.notDir hdata.notTable hdata.notKernel
  exact hlast.trans ((Function.update_of_ne hfg ..).trans hfirst)

/-- **No page table is in the frame that is copied.** -/
theorem Copied.source_notTable (h : Copied L dirs tables tables₃ tables₄ a k g s s₂ s₃ s₄ s')
    (ha : IsUserAddress a) (hcr : s.cr3 ∈ dirs) (hpde : (s.pde a).Valid = true)
    (hs : Directories L dirs tables₄ s₄.entry) (hs₃ : Directories L dirs tables₃ s₃.entry)
    (hf : f ∉ tables) (hused : s₂.RefCount f ≠ 0) : f ∉ tables₄ := by
  obtain ⟨hcr₂, hcr₃, -, -⟩ := h.cr3
  have huser := PDX_user ha
  have hpde₂ : s₂.entry s.cr3 (PDX a) = s.entry s.cr3 (PDX a) :=
    h.removed.pde _ hcr _ huser (Or.inl hpde)
  have hpde₃ : s₃.entry s.cr3 (PDX a) = s.entry s.cr3 (PDX a) :=
    (h.opened.pde _ hcr _ huser (Or.inl (hpde₂.symm ▸ hpde))).trans hpde₂
  intro hin
  obtain ⟨d, hd, i, hi, howner⟩ := hs.owner f hin
  have hsame : s₄.entry d i = s₃.entry d i := by
    refine h.mapped.pde d hd i hi ?_
    by_cases hslot : d = s₃.cr3 ∧ i = PDX a
    · obtain ⟨rfl, rfl⟩ := hslot
      rw [hcr₃, hpde₃]
      exact Or.inl hpde
    · exact Or.inr (not_and_or.mp hslot)
  have hin₃ := hs₃.target_mem hd hi (hsame ▸ howner)
  exact hused (h.opened.unused f hin₃ hf)

/-- The page itself is in the new frame, if it is not in the window. -/
theorem Copied.leaf_self (h : Copied L dirs tables tables₃ tables₄ a k g s s₂ s₃ s₄ s')
    (ha : IsUserAddress a) (hcr : s.cr3 ∈ dirs) (hs : Shape L dirs tables₄ s₄.entry)
    (hwindow : PDX a ≠ windowEntry) :
    leaf s'.entry s.cr3 (PDX a) (PTX a) = some (.make g (PTE_U ||| PTE_W)) := by
  rw [h.leaf_closed hs hcr (PDX_user ha) (PTX_lt a), setLeaf_of_ne fun hno => hwindow hno.2.1,
    h.mapped.leaf _ hcr _ (PDX_user ha) _ (PTX_lt a), h.cr3.2.1, setLeaf_self]

/-- **The page itself keeps its contents**, if it is not in the window. -/
theorem Copied.contents_self (h : Copied L dirs tables tables₃ tables₄ a k g s s₂ s₃ s₄ s')
    (ha : IsUserAddress a) (hcr : s.cr3 ∈ dirs) (hs : Shape L dirs tables₄ s₄.entry)
    (hwindow : PDX a ≠ windowEntry) (hleaf : leaf s.entry s.cr3 (PDX a) (PTX a) = some (s.pte a))
    (hu : (s.pte a).UserPriv = true) (hdata : IsData L dirs tables₄ (s.pte a).PageFrameNumber)
    (hbound : (s.pte a).PageFrameNumber < 1048576) :
    s'.contents s.cr3 (PDX a) (PTX a) = s.contents s.cr3 (PDX a) (PTX a) := by
  obtain ⟨hcr₂, hcr₃, hcr₄, -⟩ := h.cr3
  obtain ⟨-, hpdx, hptx⟩ := pageAt_window h.slot
  have hnew := h.leaf_self ha hcr hs hwindow
  have hopen : leaf s₄.entry s₄.cr3 windowEntry k
      = some (.make (s.pte a).PageFrameNumber PTE_W) := by
    rw [hcr₄, h.mapped.leaf _ hcr _ (by decide) _ h.slot, hcr₃,
      setLeaf_of_ne fun hno => hwindow hno.2.1.symm, h.opened.leaf _ hcr _ (by decide) _ h.slot, hpdx,
      hptx, hcr₂, setLeaf_self]
  have hsource : (s₄.pte (pageAt windowEntry k)).PageFrameNumber = (s.pte a).PageFrameNumber := by
    have hpte := pte_of_leaf (a := pageAt windowEntry k) (by rw [hpdx, hptx]; exact hopen)
    rw [hpte.2.1, MMPTE.make_frame hbound (by decide)]
  have hframe : (MMPTE.make g (PTE_U ||| PTE_W)).PageFrameNumber = g :=
    MMPTE.make_frame (L.bound g h.managed).2 (by decide)
  have huser : (MMPTE.make g (PTE_U ||| PTE_W)).UserPriv = true :=
    (MMPTE.make_fields g _).2.2.1.trans (by decide)
  have hfilled : s'.ram g = s₄.ram (s.pte a).PageFrameNumber := by
    rw [(h.ram h.data.notDir h.data.notTable h.data.notKernel).2, hsource]
    exact Function.update_self ..
  rw [State.contents, State.contents, hnew, hleaf, Option.bind_some, Option.bind_some, if_pos huser,
    if_pos hu, hframe, hfilled, (h.ram hdata.notDir hdata.notTable hdata.notKernel).1]

end Copied

/-- **A process gets a copy of a shared frame.** -/
theorem Ledger.breakSharing (h : Ledger L dirs tables held out s) (hcr : s.cr3 ∈ dirs)
    (ha : IsUserAddress a) (halign : a % PGSIZE = 0) (hpde : (s.pde a).Valid = true)
    (hpte : (s.pte a).Valid = true) (hcount : s.RefCount (s.pte a).PageFrameNumber ≠ 1)
    (hrun : breakSharing a (s.pte a).PageFrameNumber s = .ok s') :
    ∃ tables', Ledger L dirs tables' held out s' ∧ Owned L dirs tables tables' a s s' := by
  have hslot : (s.pde a).PageFrameNumber ∈ tables :=
    h.shape.target_mem hcr (PDX_user ha) (target_of_valid hpde)
  have htarget : (s.entry (s.pde a).PageFrameNumber (PTX a)).target
      = some (s.pte a).PageFrameNumber := target_of_valid hpte
  have hdir := h.noDirectory ha hcr hpde hpte
  have hleaf := leaf_of_pte_valid hpde hpte
  generalize hpfn : (s.pte a).PageFrameNumber = pfn at *
  obtain ⟨hmem, -, hused⟩ := h.page_managed (Or.inl hslot) (PTX_lt a) htarget
  have hnotFree : pfn ∉ s.PfnFreeList := fun hin => hused (h.free pfn hin).2.1
  have hnotOut : pfn ∉ out := fun hin => hused (h.unused pfn hin)
  -- the reference that keeps the frame
  have hinc := h.inc (f := pfn) hnotFree (fun t ht j hj he hu => by
    rw [← Bool.not_eq_true]
    intro hw
    obtain ⟨hvalid, hframe⟩ := target_eq_some.mp he
    exact hcount (hframe ▸ h.exclusive t ht j hj hvalid hu hw)) (fun _ => rfl)
  rw [Finset.erase_eq_of_notMem hnotOut] at hinc
  unfold Paging.breakSharing at hrun
  obtain ⟨s₂, hremove, hrun⟩ := kernel_bind_eq_ok.mp hrun
  obtain ⟨hledger₂, hchange₂⟩ := hinc.miRemovePage (a := a) (Or.inl ⟨ha, hcr⟩)
    (hinc.noDirectory ha hcr) hremove
  have hcr₂ : s₂.cr3 = s.cr3 := hchange₂.cr3
  obtain ⟨⟨v, s₃⟩, hwindow, hcopy⟩ := kernel_bind_eq_ok.mp hrun
  rcases hledger₂.mmMapPageTemp (hcr₂ ▸ hcr)
      (hledger₂.shareable_of_held hmem (by rw [if_pos rfl]; omega) hdir) hwindow with
    ⟨rfl, rfl⟩ | ⟨k, hk, rfl, hfree, tables₃, hledger₃, hchange₃⟩
  · cases hcopy
  rw [Finset.erase_eq_of_notMem hnotOut] at hledger₃
  have hcr₃ : s₃.cr3 = s.cr3 := hchange₃.cr3.trans hcr₂
  obtain ⟨s₄, hsegment, hcopy⟩ := kernel_bind_eq_ok.mp hcopy
  obtain ⟨g, rest, hlist, hinsert⟩ := mmMapSegment_page ha halign hsegment
  have hg := (hledger₃.free g (hlist ▸ List.mem_cons_self ..)).1
  obtain ⟨tables₄, hledger₄, hchange₄⟩ := hledger₃.mapFresh (Or.inl ⟨ha, hcr₃ ▸ hcr⟩) hlist (by decide)
    (by decide) (fun _ => ha) (hledger₃.noDirectory ha (hcr₃ ▸ hcr)) hinsert
  have hcr₄ : s₄.cr3 = s.cr3 := hchange₄.cr3.trans hcr₃
  -- the new frame, to which the contents are copied
  have hpage : leaf s₄.entry s₄.cr3 (PDX a) (PTX a) = some (.make g (PTE_U ||| PTE_W)) := by
    rw [hchange₄.leaf _ (hcr₄ ▸ hcr) _ (PDX_user ha) _ (PTX_lt a), hchange₄.cr3, setLeaf_self]
  have hframe : (s₄.pte a).PageFrameNumber = g := by
    rw [(pte_of_leaf hpage).2.1]
    exact MMPTE.make_frame (L.bound g hg).2 (by decide)
  obtain ⟨hdata, -⟩ := hledger₄.shape.isData (hcr₄ ▸ hcr) (PDX_user ha) (PTX_lt a) hpage
    ((MMPTE.make_fields g _).2.2.1.trans (by decide))
  rw [← (pte_of_leaf hpage).2.1, hframe] at hdata
  rw [hframe] at hcopy
  have hledger₅ : Ledger L dirs tables₄ _ out (s₄.copyFrame g
      (s₄.pte (pageAt windowEntry k)).PageFrameNumber) :=
    hledger₄.writeData hdata (fun x hx => Function.update_of_ne hx ..) rfl rfl
  obtain ⟨s₆, hunmap, hcopy⟩ := kernel_bind_eq_ok.mp hcopy
  obtain ⟨hledger₆, hchange₆⟩ := hledger₅.mmUnMapPageTemp (hcr₄ ▸ hcr) (pageAt_window hk).1 hunmap
  rw [miDecReferencePFN_eq] at hcopy
  cases hcopy
  have hcopied : Copied L dirs tables tables₃ tables₄ a k g s s₂ s₃ s₄ s₆ :=
    ⟨hk, ⟨hchange₂.cr3, hchange₂.grows, hchange₂.pde, hchange₂.leaf, hchange₂.ram, hchange₂.global,
      hchange₂.kernel, hchange₂.there, fun t ht hno => absurd ht hno⟩, hfree, hpfn.symm ▸ hchange₃,
      hchange₄, hg, hdata, hchange₆⟩
  refine ⟨tables₄, hledger₆.dec hmem (by rw [if_pos rfl]; omega) hdir fun _ => rfl,
    hchange₆.cr3.trans hcr₄, hchange₃.grows.trans hchange₄.grows,
    fun d hd i hi j hj hother => hcopied.others hledger₄.shape hd hi hj hother,
    fun hout hu d hd i hi j hj => ?_, fun hout _ => ⟨_, hcopied.leaf_self ha hcr hledger₄.shape hout,
      (MMPTE.make_fields g _).2.2.1.trans (by decide), (MMPTE.make_fields g _).2.1.trans (by decide)⟩,
    hcopied.confined hledger₄.shape.toDirectories⟩
  by_cases hother : d = s.cr3 ∧ i = PDX a ∧ j = PTX a
  · obtain ⟨rfl, rfl, rfl⟩ := hother
    obtain ⟨hsource, -⟩ := h.shape.isData hcr (PDX_user ha) (PTX_lt a) hleaf hu
    rw [hpfn] at hsource
    have hheld : s₂.RefCount pfn ≠ 0 := by
      have hcount₂ := hledger₂.count pfn hmem
      rw [if_pos rfl] at hcount₂
      omega
    have hnotTable := hcopied.source_notTable ha hcr hpde hledger₄.shape.toDirectories
      hledger₃.shape.toDirectories hsource.notTable hheld
    exact hcopied.contents_self ha hcr hledger₄.shape hout hleaf hu
      (hpfn.symm ▸ ⟨hsource.notDir, hnotTable, hsource.notKernel, hsource.notGlobal⟩)
      (hpfn.symm ▸ (L.bound pfn hmem).2)
  · exact hcopied.contents_other ha hcr hledger₄ hd hi hj hother

/-- The indices of an address are those of its page. -/
theorem index_roundDown (a : Nat) :
    PDX (roundDown a PGSIZE) = PDX a ∧ PTX (roundDown a PGSIZE) = PTX a := by
  simp only [PDX, PTX, roundDown, PTSIZE, PGSIZE, NPTENTRIES]
  omega

/-- **`MmPfHandler` keeps the ledger**, and changes the page of the fault only. -/
theorem Ledger.mmPfHandler (h : Ledger L dirs tables held out s) (hcr : s.cr3 ∈ dirs)
    (hrun : mmPfHandler a s = .ok s') :
    ∃ tables', Ledger L dirs tables' held out s' ∧ Owned L dirs tables tables' a s s' := by
  obtain ⟨hpdx, hptx⟩ := index_roundDown a
  have hpdeRound : s.pde (roundDown a PGSIZE) = s.pde a := by rw [State.pde, State.pde, hpdx]
  have hpteRound : s.pte (roundDown a PGSIZE) = s.pte a := by
    rw [State.pte, State.pte, hpdeRound, hptx]
  unfold Paging.mmPfHandler at hrun
  split at hrun
  · cases hrun
  rename_i huser
  have huser := not_not.mp huser
  split at hrun
  · cases hrun
  rename_i hpde
  have hpde := (Bool.not_eq_false _).mp hpde
  split at hrun
  · cases hrun
  rename_i hpte
  have hpte := (Bool.not_eq_false _).mp hpte
  split at hrun
  · cases hrun
  obtain ⟨_, -, hrun⟩ := kernel_bind_eq_ok.mp hrun
  obtain ⟨_, hwritable, hrun⟩ := kernel_bind_eq_ok.mp hrun
  have hwritable := assert_eq_ok.mp hwritable
  split at hrun
  · rename_i hone
    cases hrun
    obtain ⟨hledger, hchange⟩ := h.ownPage hcr huser hpde hpte hwritable hone rfl
    refine ⟨tables, hledger, hchange.cr3, hchange.grows,
      fun d hd i hi j hj hother => (hchange.leaf d hd i hi j hj).trans (setLeaf_of_ne hother),
      fun _ _ d hd i hi j hj => ?_, fun _ hu => ?_, hledger.shape.confined hchange.ram⟩
    case refine_2 =>
      obtain ⟨-, hw, hsame, -⟩ := (s.pte a).own_fields
      refine ⟨_, ?_, hsame.trans hu, hw⟩
      rw [hchange.leaf _ hcr _ (PDX_user huser) _ (PTX_lt a), setLeaf_self]
    by_cases hother : d = s.cr3 ∧ i = PDX a ∧ j = PTX a
    · -- the page stays in its frame
      obtain ⟨rfl, rfl, rfl⟩ := hother
      have hleaf := leaf_of_pte_valid hpde hpte
      obtain ⟨-, -, huser₁, -, hframe₁⟩ := (s.pte a).setCopyOnWrite_fields false
      obtain ⟨-, -, huser₂, -, hframe₂⟩ := ((s.pte a).setCopyOnWrite false).setWritable_fields true
      refine contents_of_leaf (fun p => (p.setCopyOnWrite false).setWritable true) ?_ (fun p hp => ?_)
        fun p hp hu => ?_
      · rw [hchange.leaf _ hd _ hi _ hj, setLeaf_self, hleaf, Option.map_some]
      · obtain rfl := Option.some.inj (hleaf.symm.trans hp)
        exact ⟨huser₂.trans huser₁, hframe₂.trans hframe₁⟩
      · obtain ⟨hdata, -⟩ := h.shape.isData hd hi hj hp hu
        exact hchange.ram _ hdata.notDir hdata.notTable hdata.notKernel
    · exact h.shape.contents_kept hd hi hj rfl
        ((hchange.leaf d hd i hi j hj).trans (setLeaf_of_ne hother)) hchange.ram
  · rename_i hone
    have hround : IsUserAddress (roundDown a PGSIZE) := by
      simp only [IsUserAddress, roundDown] at *
      omega
    have halign : roundDown a PGSIZE % PGSIZE = 0 := by
      simp only [roundDown, PGSIZE]
      omega
    rw [← hpteRound] at hrun hone hpte
    rw [← hpdeRound] at hpde
    obtain ⟨tables', hledger, howned⟩ := h.breakSharing hcr hround halign hpde hpte hone hrun
    refine ⟨tables', hledger, howned.cr3, howned.grows, ?_, ?_, ?_, howned.confined⟩
    · rw [← hpdx, ← hptx]
      exact howned.others
    · rw [← hpdx, ← hpteRound]
      exact howned.contents
    · rw [← hpdx, ← hptx, ← hpteRound]
      exact howned.own

end KaushOS.Paging
