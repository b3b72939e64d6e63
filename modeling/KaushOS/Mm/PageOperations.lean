import KaushOS.Mm.PageLeaves

/-! # Mapping and unmapping a page

What the routines for one page do when they return, first as equations between states, and then as
entries of the ledger and as changes of what the address spaces map.

* **`miRemovePage_ok`, `insertPageTable_ok`, `insertFrame_ok`** — the states.
* **`Ledger.removePage`, `Ledger.newTable`, `Ledger.insertFrame`** — the ledger.
* **`Ledger.insertPage`** — a fresh frame is mapped at an address of the current process. -/

namespace KaushOS.Paging

variable {L : Layout} {dirs tables : Finset Nat} {held held' : Nat → Nat} {out : Finset Nat}
  {s s' : State} {a d i j t x f pfn perm pageDirectory : Nat} {rest : List Nat} {status : KSTATUS}

/-! ## States -/

/-- **A page has been removed.** -/
theorem miRemovePage_ok (hrun : miRemovePage pageDirectory a s = .ok s') :
    a % PGSIZE = 0 ∧ (s.pde a).Valid = true ∧ (s.pte a).Valid = true
      ∧ s' = (s.setPte a ⟨0⟩).dec (s.pte a).PageFrameNumber := by
  obtain ⟨_, haligned, hrun⟩ := kernel_bind_eq_ok.mp hrun
  split at hrun
  · cases hrun
  · split at hrun
    · cases hrun
    · rename_i hvalid
      rw [not_or, Bool.not_eq_false, Bool.not_eq_false] at hvalid
      simp only [miDecReferencePFN_eq, kernel_ok_bind] at hrun
      exact ⟨assert_eq_ok.mp haligned, hvalid.1, hvalid.2, (Except.ok.inj hrun).symm⟩

/-- The state with a new page table for the address `a`. -/
def State.newTable (s : State) (pageDirectory a t : Nat) (rest : List Nat) : State :=
  (((miIncReferencePFN t { s with PfnFreeList := rest }).setEntry pageDirectory (PDX a)
    (.make t userPerm))).clearFrame t

/-- The entry of a new page table. -/
theorem pde_newTable (hne : s.cr3 ≠ t) : (s.newTable s.cr3 a t rest).pde a = .make t userPerm := by
  rw [State.pde, State.newTable]
  exact (entry_clearFrame_of_ne hne).trans entry_setEntry_self

/-- A new page table is empty. -/
theorem pte_newTable (hne : s.cr3 ≠ t) (ht : t < 1048576) :
    (s.newTable s.cr3 a t rest).pte a = ⟨0⟩ := by
  rw [State.pte, pde_newTable hne, MMPTE.make_frame ht (by decide)]
  exact entry_clearFrame_self

/-- **A page table is added.** -/
theorem insertPageTable_new (hpde : (s.pde a).Valid = false) (ha : IsUserAddress a)
    (hfree : s.PfnFreeList = t :: rest) (ht : t < 1048576) :
    insertPageTable s.cr3 a s = .ok (.STATUS_SUCCESS, s.newTable s.cr3 a t rest) := by
  have hno : ¬ (s.pde a).Valid = true := by
    rw [hpde]
    decide
  have hstored : ((miIncReferencePFN t { s with PfnFreeList := rest }).setEntry s.cr3 (PDX a)
      (.make t userPerm)).pde a = .make t userPerm := entry_setEntry_self
  rw [insertPageTable, if_neg hno, assert_of_true ha, kernel_ok_bind]
  simp only [mmAllocatePFN, hfree, if_pos ha]
  rw [show PTE_W ||| PTE_U = userPerm from rfl, hstored, MMPTE.make_frame ht (by decide)]
  rfl

/-- **A page table has been seen to.** -/
theorem insertPageTable_ok (hrun : insertPageTable pageDirectory a s = .ok (status, s'))
    (hpd : pageDirectory = s.cr3) (hbound : ∀ f ∈ s.PfnFreeList, f < 1048576) :
    ((s.pde a).Valid = true ∧ status = .STATUS_SUCCESS ∧ s' = s)
      ∨ (s.pde a).Valid = false ∧ IsUserAddress a
        ∧ ((s.PfnFreeList = [] ∧ status = .STATUS_NO_MEMORY ∧ s' = s)
          ∨ ∃ t rest, s.PfnFreeList = t :: rest ∧ status = .STATUS_SUCCESS
            ∧ s' = s.newTable s.cr3 a t rest) := by
  subst hpd
  cases hpde : (s.pde a).Valid with
  | true =>
    rw [insertPageTable, if_pos hpde] at hrun
    cases hrun
    exact Or.inl ⟨rfl, rfl, rfl⟩
  | false =>
    have huser : IsUserAddress a := by
      rw [insertPageTable, hpde] at hrun
      obtain ⟨_, huser, -⟩ := kernel_bind_eq_ok.mp hrun
      exact assert_eq_ok.mp huser
    refine Or.inr ⟨rfl, huser, ?_⟩
    cases hfree : s.PfnFreeList with
    | nil =>
      rw [insertPageTable, hpde, assert_of_true huser] at hrun
      simp only [mmAllocatePFN, hfree] at hrun
      cases hrun
      exact Or.inl ⟨rfl, rfl, rfl⟩
    | cons t rest =>
      rw [insertPageTable_new hpde huser hfree (hbound t (hfree ▸ List.mem_cons_self ..))] at hrun
      cases hrun
      exact Or.inr ⟨t, rest, rfl, rfl, rfl⟩

/-- **A frame has been put into a page table**; what was mapped there has been removed. -/
theorem insertFrame_ok (hrun : insertFrame pageDirectory a pfn perm s = .ok s')
    (hne : (s.pte a).PageFrameNumber ≠ pfn) :
    ((s.pte a).Long = 0 ∧ s' = miIncReferencePFN pfn (s.setPte a (.make pfn perm)))
      ∨ (s.pde a).Valid = true ∧ (s.pte a).Valid = true
        ∧ s' = miIncReferencePFN pfn
          (((s.setPte a ⟨0⟩).dec (s.pte a).PageFrameNumber).setPte a (.make pfn perm)) := by
  unfold insertFrame at hrun
  rw [if_neg hne] at hrun
  dsimp only at hrun
  split at hrun
  · obtain ⟨s₁, hremove, hrun⟩ := kernel_bind_eq_ok.mp hrun
    obtain ⟨-, hpde, hpte, rfl⟩ := miRemovePage_ok hremove
    exact Or.inr ⟨hpde, hpte, (Except.ok.inj hrun).symm⟩
  · rename_i hzero
    exact Or.inl ⟨not_not.mp hzero, (Except.ok.inj hrun).symm⟩

/-- Inserting a page does not load another directory. -/
theorem miInsertPage_cr3 (hrun : miInsertPage pageDirectory a pfn perm s = .ok (status, s')) :
    s'.cr3 = s.cr3 := by
  have htable : ∀ r, insertPageTable pageDirectory a s = .ok r → r.2.cr3 = s.cr3 := by
    intro r hr
    unfold insertPageTable at hr
    split at hr
    · cases hr
      rfl
    · obtain ⟨_, -, hr⟩ := kernel_bind_eq_ok.mp hr
      cases hfree : s.PfnFreeList with
      | nil =>
        simp only [mmAllocatePFN, hfree] at hr
        cases hr
        rfl
      | cons t rest =>
        simp only [mmAllocatePFN, hfree] at hr
        cases hr
        rfl
  have hframe : ∀ s₁ s₂, insertFrame pageDirectory a pfn perm s₁ = .ok s₂ → s₂.cr3 = s₁.cr3 := by
    intro s₁ s₂ hr
    by_cases hsame : (s₁.pte a).PageFrameNumber = pfn
    · rw [insertFrame, if_pos hsame] at hr
      cases hr
      rfl
    · rcases insertFrame_ok hr hsame with ⟨-, rfl⟩ | ⟨-, -, rfl⟩ <;> rfl
  unfold miInsertPage at hrun
  split at hrun
  · cases hrun
  · obtain ⟨⟨status₁, s₁⟩, hr, hrun⟩ := kernel_bind_eq_ok.mp hrun
    have hcr : s₁.cr3 = s.cr3 := htable _ hr
    cases status₁ with
    | STATUS_NO_MEMORY =>
      cases hrun
      exact hcr
    | STATUS_SUCCESS =>
      obtain ⟨s₂, hr, hrun⟩ := kernel_bind_eq_ok.mp hrun
      cases hrun
      exact (hframe _ _ hr).trans hcr

/-! ## Addresses -/

/-- **An address that can be mapped**: in the user half of a process, or in the kernel half. -/
def Mappable (L : Layout) (dirs : Finset Nat) (s : State) (a : Nat) : Prop :=
  (IsUserAddress a ∧ s.cr3 ∈ dirs) ∨
    (KernelIndex (PDX a) ∧ (s.cr3 ∈ dirs ∨ s.cr3 = L.globalPgdir))

/-- The index of a user address. -/
theorem PDX_user (ha : IsUserAddress a) : PDX a < userEntries := by
  have hentries : userEntries = 511 := by decide
  simp only [IsUserAddress, USERTOP, PDX, PTSIZE, NPTENTRIES, hentries] at *
  omega

/-- The index in a page table. -/
theorem PTX_lt (a : Nat) : PTX a < NPTENTRIES := Nat.mod_lt _ (by decide)

/-- **The page table of an address** is one of the process or one of the kernel. -/
theorem Directories.slot (h : Directories L dirs tables s.entry) (ha : Mappable L dirs s a)
    (hv : (s.pde a).Valid = true) :
    (IsUserAddress a ∧ s.cr3 ∈ dirs ∧ (s.pde a).PageFrameNumber ∈ tables)
      ∨ KernelIndex (PDX a) ∧ (s.pde a).PageFrameNumber ∈ L.kernel := by
  rcases ha with ⟨huser, hcr⟩ | ⟨hk, hcr⟩
  · exact Or.inl ⟨huser, hcr, h.target_mem hcr (PDX_user huser) (target_of_valid hv)⟩
  · refine Or.inr ⟨hk, ?_⟩
    have hpde : s.pde a = s.entry L.globalPgdir (PDX a) := by
      rcases hcr with hcr | hcr
      · exact h.half _ hcr _ hk
      · rw [State.pde, hcr]
    rw [hpde]
    exact (h.kernel _ hk).2

/-- A page table is where `Ledger.storePage` wants it. -/
theorem Directories.slot_mem (h : Directories L dirs tables s.entry) (ha : Mappable L dirs s a)
    (hv : (s.pde a).Valid = true) :
    (s.pde a).PageFrameNumber ∈ tables ∨ (s.pde a).PageFrameNumber ∈ L.kernel :=
  (h.slot ha hv).imp (fun hu => hu.2.2) And.right

/-- The loaded directory is not a page table. -/
theorem Directories.slot_ne (h : Directories L dirs tables s.entry) (ha : Mappable L dirs s a)
    (hv : (s.pde a).Valid = true) : s.cr3 ≠ (s.pde a).PageFrameNumber := by
  have hcr : s.cr3 ∈ dirs ∨ s.cr3 = L.globalPgdir := ha.elim (fun hu => Or.inl hu.2) And.right
  obtain ⟨hdir, hglobal⟩ := h.table_apart (h.slot_mem ha hv)
  intro heq
  rcases hcr with hcr | hcr
  · exact hdir (heq ▸ hcr)
  · exact hglobal (heq ▸ hcr)

/-- An entry of a page table is empty or a page. -/
theorem Shape.pte_cases (h : Shape L dirs tables s.entry) (ha : Mappable L dirs s a)
    (hv : (s.pde a).Valid = true) :
    s.pte a = ⟨0⟩ ∨ L.Page dirs tables (s.pde a).PageFrameNumber (s.pte a) :=
  h.page _ (h.slot_mem ha hv) _ (PTX_lt a)

/-- Storing an entry leaves the page directories alone. -/
theorem pde_setPte (p : MMPTE) (b : Nat) (hne : s.cr3 ≠ (s.pde a).PageFrameNumber) :
    (s.setPte a p).pde b = s.pde b := entry_setEntry_of_ne (Or.inl hne)

/-- The entry that has been stored at an address. -/
theorem pte_setPte (p : MMPTE) (hne : s.cr3 ≠ (s.pde a).PageFrameNumber) :
    (s.setPte a p).pte a = p := by
  rw [State.pte, pde_setPte p a hne]
  exact entry_setEntry_self

/-! ## What changes -/

/-- **What changes when one page is mapped or unmapped** at the address `a` of the loaded directory:
that page, and nothing else that an address space maps. -/
structure Remapped (L : Layout) (dirs tables tables' : Finset Nat) (a : Nat) (o : Option MMPTE)
    (s s' : State) : Prop where
  cr3 : s'.cr3 = s.cr3
  grows : tables ⊆ tables'
  pde : ∀ d ∈ dirs, ∀ i < userEntries, (s.entry d i).Valid = true ∨ d ≠ s.cr3 ∨ i ≠ PDX a →
    s'.entry d i = s.entry d i
  leaf : ∀ d ∈ dirs, ∀ i < userEntries, ∀ j < NPTENTRIES, leaf s'.entry d i j
    = setLeaf (leaf s.entry) s.cr3 (PDX a) (PTX a) o d i j
  ram : ∀ f, f ∉ dirs → f ∉ tables' → f ∉ L.kernel → s'.ram f = s.ram f
  global : s'.entry L.globalPgdir = s.entry L.globalPgdir
  kernel : ∀ x ∈ L.kernel, ∀ j, s'.entry x j = s.entry x j ∨
    ∀ d ∈ dirs, (s'.entry x j).target ≠ some d
  there : ∀ p, o = some p → (s'.pde a).Valid = true ∧ s'.pte a = p
  unused : ∀ t ∈ tables', t ∉ tables → s.RefCount t = 0

/-- Only the memory and the loaded directory matter, and what was unused before. -/
theorem Remapped.congr {tables' : Finset Nat} {o : Option MMPTE} {s₁ s₁' : State}
    (h : Remapped L dirs tables tables' a o s s') (hram : s₁.ram = s.ram) (hcr3 : s₁.cr3 = s.cr3)
    (href : s₁.RefCount = s.RefCount) (hram' : s₁'.ram = s'.ram) (hcr3' : s₁'.cr3 = s'.cr3) :
    Remapped L dirs tables tables' a o s₁ s₁' := by
  obtain ⟨ram, cr3, _, refs⟩ := s
  obtain ⟨ram', cr3', _, _⟩ := s'
  obtain ⟨ram₁, cr3₁, _, refs₁⟩ := s₁
  obtain ⟨ram₁', cr3₁', _, _⟩ := s₁'
  obtain rfl : ram₁ = ram := hram
  obtain rfl : cr3₁ = cr3 := hcr3
  obtain rfl : refs₁ = refs := href
  obtain rfl : ram₁' = ram' := hram'
  obtain rfl : cr3₁' = cr3' := hcr3'
  exact ⟨h.cr3, h.grows, h.pde, h.leaf, h.ram, h.global, h.kernel, h.there, h.unused⟩

/-- A page that is mapped as it was. -/
theorem Remapped.refl {o : Option MMPTE} (h : Paging.leaf s.entry s.cr3 (PDX a) (PTX a) = o) :
    Remapped L dirs tables tables a o s s := by
  refine ⟨rfl, Finset.Subset.refl _, fun _ _ _ _ _ => rfl, fun d _ i _ j _ => ?_, fun _ _ _ _ => rfl,
    rfl, fun _ _ _ => Or.inl rfl, fun p hp => ?_, fun _ ht hno => absurd ht hno⟩
  case refine_2 =>
    obtain ⟨hpde, hpte, -⟩ := pte_of_leaf (h.trans hp)
    exact ⟨hpde, hpte⟩
  by_cases hslot : d = s.cr3 ∧ i = PDX a ∧ j = PTX a
  · obtain ⟨rfl, rfl, rfl⟩ := hslot
    rw [setLeaf_self, h]
  · rw [setLeaf_of_ne hslot]

/-- A page is remapped twice, the second time in a page table that is there. -/
theorem Remapped.trans {tables₁ : Finset Nat} {o o' : Option MMPTE} {s₁ s₂ : State}
    (h : Remapped L dirs tables tables₁ a o s s₁)
    (h' : Remapped L dirs tables₁ tables₁ a o' s₁ s₂) :
    Remapped L dirs tables tables₁ a o' s s₂ where
  cr3 := h'.cr3.trans h.cr3
  grows := h.grows.trans h'.grows
  pde d hd i hi hor := by
    have hfirst := h.pde d hd i hi hor
    rw [← h.cr3, ← hfirst] at hor
    rw [h'.pde d hd i hi hor, hfirst]
  leaf d hd i hi j hj := by
    rw [h'.leaf d hd i hi j hj, h.cr3]
    by_cases hslot : d = s.cr3 ∧ i = PDX a ∧ j = PTX a
    · rw [setLeaf, setLeaf, if_pos hslot, if_pos hslot]
    · rw [setLeaf_of_ne hslot, setLeaf_of_ne hslot, h.leaf d hd i hi j hj, setLeaf_of_ne hslot]
  ram f hd ht hk := by
    rw [h'.ram f hd ht hk, h.ram f hd (fun hin => ht (h'.grows hin)) hk]
  global := h'.global.trans h.global
  kernel x hx j := by
    rcases h'.kernel x hx j with heq | hno
    · rw [heq]
      exact h.kernel x hx j
    · exact Or.inr hno
  there := h'.there
  unused := h.unused

/-- **Only frames that are managed, and page tables of the kernel, have been written.** -/
def Confined (L : Layout) (s s' : State) : Prop :=
  ∀ f, f ∉ L.managed → f ∉ L.kernel → s'.ram f = s.ram f

/-- One change after another. -/
theorem Confined.trans {s₁ s₂ : State} (h : Confined L s s₁) (h' : Confined L s₁ s₂) :
    Confined L s s₂ := fun f hf hk => (h' f hf hk).trans (h f hf hk)

/-- **Page tables and page directories are managed.** -/
theorem Directories.confined {E : Entries} (h : Directories L dirs tables E)
    (hram : ∀ f, f ∉ dirs → f ∉ tables → f ∉ L.kernel → s'.ram f = s.ram f) : Confined L s s' :=
  fun f hf hk => hram f (fun hd => hf (h.dirs_managed f hd)) (fun ht => hf (h.tables_managed f ht)) hk

/-- **A store to an entry of a page table.** -/
theorem Directories.remapped (h : Directories L dirs tables s.entry) (ha : Mappable L dirs s a)
    (hv : (s.pde a).Valid = true) {p : MMPTE} (hp : ∀ d ∈ dirs, p.target ≠ some d) :
    Remapped L dirs tables tables a (if p.Valid then some p else none) s (s.setPte a p) where
  cr3 := rfl
  grows := Finset.Subset.refl _
  pde d hd i _ _ := by
    refine entry_setEntry_of_ne (Or.inl ?_)
    rintro rfl
    exact (h.table_apart (h.slot_mem ha hv)).1 hd
  leaf d hd i hi j _ := by
    rw [State.setPte, entries_setEntry]
    rcases h.slot ha hv with ⟨huser, hcr, -⟩ | ⟨hk, hmem⟩
    · exact leaf_storePage h hcr (PDX_user huser) (target_of_valid hv) hd hi
    · obtain ⟨hdir, -⟩ := h.table_apart (Or.inr hmem)
      have htable : (s.pde a).PageFrameNumber ∉ tables := fun hin =>
        L.kernel_notMem _ hmem (h.tables_managed _ hin)
      have hlt := hk.1
      have hle := userEntries_lt.1
      rw [leaf_storeOther h hdir htable hd hi, setLeaf_of_ne]
      rintro ⟨-, rfl, -⟩
      omega
  ram f _ ht hk := by
    refine Function.update_of_ne ?_ ..
    rintro rfl
    exact (h.slot_mem ha hv).elim ht hk
  global := by
    funext k
    exact entry_setEntry_of_ne (Or.inl (h.table_apart (h.slot_mem ha hv)).2.symm)
  kernel x _ j := by
    rw [State.setPte, entries_setEntry]
    by_cases hslot : x = (s.pde a).PageFrameNumber ∧ j = PTX a
    · obtain ⟨rfl, rfl⟩ := hslot
      rw [storeEntry_self]
      exact Or.inr hp
    · exact Or.inl (storeEntry_of_ne (not_and_or.mp hslot))
  there q hq := by
    have hne := h.slot_ne ha hv
    split at hq
    · cases hq
      exact ⟨(pde_setPte p a hne).symm ▸ hv, pte_setPte p hne⟩
    · cases hq
  unused _ ht hno := absurd ht hno

/-! ## Removing -/

/-- **A page is removed.** -/
theorem Ledger.removePage (h : Ledger L dirs tables held out s) (ha : Mappable L dirs s a)
    (hpde : (s.pde a).Valid = true) (hpte : (s.pte a).Valid = true)
    (hdir : (s.pte a).PageFrameNumber ∉ dirs) :
    Ledger L dirs tables held out ((s.setPte a ⟨0⟩).dec (s.pte a).PageFrameNumber)
      ∧ Remapped L dirs tables tables a none s
        ((s.setPte a ⟨0⟩).dec (s.pte a).PageFrameNumber) := by
  have hslot := h.shape.slot_mem ha hpde
  have htarget : (s.entry (s.pde a).PageFrameNumber (PTX a)).target
      = some (s.pte a).PageFrameNumber := target_of_valid hpte
  obtain ⟨hmem, -, -⟩ := h.page_managed hslot (PTX_lt a) htarget
  have hstore : Ledger L dirs tables
      (fun g => held g + if g = (s.pte a).PageFrameNumber then 1 else 0) out (s.setPte a ⟨0⟩) := by
    refine h.storePage hslot (PTX_lt a) (Or.inl rfl) (fun _ huser => by cases huser) fun g => ?_
    have hiff : (if some (s.pte a).PageFrameNumber = some g then 1 else 0)
        = if g = (s.pte a).PageFrameNumber then 1 else 0 :=
      if_congr (by rw [Option.some.injEq, eq_comm]) rfl rfl
    rw [htarget, hiff, target_zero, if_neg (show ¬ none = some g from fun heq => by cases heq)]
    rfl
  refine ⟨hstore.dec hmem (by rw [if_pos rfl]; omega) hdir fun g => rfl, ?_⟩
  have hchange := h.shape.remapped ha hpde (p := ⟨0⟩) fun d _ heq => by
    rw [target_zero] at heq
    cases heq
  rw [if_neg (by decide)] at hchange
  exact hchange.congr rfl rfl rfl rfl rfl

/-! ## Inserting -/

/-- Clearing one frame and storing to another one may be done in any order. -/
theorem clearFrame_setEntry (p : MMPTE) (hne : d ≠ t) :
    (s.setEntry d i p).clearFrame t = (s.clearFrame t).setEntry d i p := by
  have hrow : (Function.update s.ram t fun _ => (0 : BitVec 8)) d = s.ram d :=
    Function.update_of_ne hne ..
  simp only [State.setEntry, State.clearFrame, PhysicalMemory.storeWord, PhysicalMemory.clear]
  rw [Function.update_comm (Ne.symm hne), hrow]

/-- **A frame that is held by nothing.** -/
structure Fresh (L : Layout) (dirs tables : Finset Nat) (s : State) (t : Nat) : Prop where
  managed : t ∈ L.managed
  notDir : t ∉ dirs
  notTable : t ∉ tables
  notKernel : t ∉ L.kernel
  notGlobal : t ≠ L.globalPgdir
  unheld : ∀ x, x ∈ tables ∨ x ∈ L.kernel → ∀ j < NPTENTRIES, (s.entry x j).target ≠ some t

/-- What is free is held by nothing. -/
theorem Ledger.fresh (h : Ledger L dirs tables held out s) (ht : t ∈ s.PfnFreeList) :
    Fresh L dirs tables s t := by
  obtain ⟨hmem, hzero, -⟩ := h.free t ht
  obtain ⟨-, -, hdir, htable, hunheld⟩ := h.unreferred hmem hzero
  exact ⟨hmem, hdir, htable, fun hin => L.kernel_notMem t hin hmem,
    fun heq => L.global_notMem (heq ▸ hmem), hunheld⟩

/-- A new page table is empty. -/
theorem entry_newTable_table : (s.newTable d a t rest).entry t j = ⟨0⟩ := entry_clearFrame_self

/-- A new page table is in its page directory. -/
theorem entry_newTable_dir (hne : d ≠ t) :
    (s.newTable d a t rest).entry d (PDX a) = .make t userPerm :=
  (entry_clearFrame_of_ne hne).trans entry_setEntry_self

/-- A new page table leaves the other entries alone. -/
theorem entry_newTable_of_ne (hx : x ≠ t) (h : x ≠ d ∨ j ≠ PDX a) :
    (s.newTable d a t rest).entry x j = s.entry x j :=
  (entry_clearFrame_of_ne hx).trans (entry_setEntry_of_ne h)

/-- **A page table is added** to a page directory. -/
theorem Ledger.newTable (h : Ledger L dirs tables held out s) (hd : d ∈ dirs) (huser : IsUserAddress a)
    (hempty : s.entry d (PDX a) = ⟨0⟩) (hfree : s.PfnFreeList = t :: rest) :
    Ledger L dirs (insert t tables) held out (s.newTable d a t rest) := by
  have hin : t ∈ s.PfnFreeList := hfree ▸ List.mem_cons_self ..
  obtain ⟨-, -, hout⟩ := h.free t hin
  have hfresh := h.fresh hin
  have hne : d ≠ t := fun heq => hfresh.notDir (heq ▸ hd)
  have hinc := (h.allocate hfree).inc (f := t) (List.nodup_cons.mp (hfree ▸ h.nodup)).1
    (fun u hu j hj heq => absurd heq (hfresh.unheld u (Or.inl hu) j hj)) (fun _ => rfl)
  rw [Finset.erase_insert hout] at hinc
  have hentries : ∀ x, x ≠ t → ((miIncReferencePFN t { s with PfnFreeList := rest }).clearFrame
      t).entry x = s.entry x := by
    intro x hx
    funext k
    exact entry_clearFrame_of_ne hx
  have htable : ∀ x, x ∈ tables ∨ x ∈ L.kernel → x ≠ t := by
    rintro x hx rfl
    exact hx.elim hfresh.notTable hfresh.notKernel
  have hclear : Ledger L dirs tables _ _
      ((miIncReferencePFN t { s with PfnFreeList := rest }).clearFrame t) := hinc.congr
    rfl rfl (fun d' hd' => hentries d' (by
      rintro rfl
      exact hd'.elim hfresh.notDir hfresh.notGlobal)) (fun x hx => hentries x (htable x hx))
  -- clearing before or after the store is the same
  have hstate : s.newTable d a t rest
      = ((miIncReferencePFN t { s with PfnFreeList := rest }).clearFrame t).setEntry d (PDX a)
        (.make t userPerm) := clearFrame_setEntry _ hne
  rw [hstate]
  refine hclear.addTable hd (PDX_user huser) ?_ hfresh.managed hfresh.notDir hfresh.notTable
    (fun _ => entry_clearFrame_self) (fun x hx j hj => ?_) (fun _ => rfl)
  · rw [hentries d hne, hempty]
  · rw [hentries x (htable x hx)]
    exact hfresh.unheld x hx j hj

/-- A new page table maps nothing. -/
theorem Fresh.leaf_newTable (hfresh : Fresh L dirs tables s t)
    (h : Directories L dirs tables s.entry) (hd : d ∈ dirs) (hempty : s.entry d (PDX a) = ⟨0⟩)
    {d' : Nat} (hd' : d' ∈ dirs) (hi : i < userEntries) (j : Nat) :
    leaf (s.newTable d a t rest).entry d' i j = leaf s.entry d' i j := by
  have hdt : ∀ d ∈ dirs, d ≠ t := by
    rintro d hd rfl
    exact hfresh.notDir hd
  by_cases hslot : d' = d ∧ i = PDX a
  · obtain ⟨rfl, rfl⟩ := hslot
    have hempty' : ¬ ((s.newTable d' a t rest).entry t j).Valid = true := by
      rw [entry_newTable_table]
      decide
    rw [leaf_of_table (t := t), if_neg hempty', leaf_of_none (by rw [hempty, target_zero])]
    rw [entry_newTable_dir (hdt d' hd), target_make hfresh.managed (by decide)]
  · refine leaf_congr (entry_newTable_of_ne (hdt d' hd') (not_and_or.mp hslot)) fun u hu =>
      entry_newTable_of_ne ?_ (Or.inl ?_)
    · rintro rfl
      exact hfresh.notTable (h.target_mem hd' hi hu)
    · rintro rfl
      exact h.apart u hd (h.target_mem hd' hi hu)

/-- A new page table is in no frame of data. -/
theorem ram_newTable (hf : f ≠ t) (hfd : f ≠ d) : (s.newTable d a t rest).ram f = s.ram f :=
  (Function.update_of_ne hf ..).trans (Function.update_of_ne hfd ..)

/-- **A page table is added to the loaded directory.** -/
theorem Fresh.remapped (hfresh : Fresh L dirs tables s t) (h : Directories L dirs tables s.entry)
    (hcr : s.cr3 ∈ dirs) (hempty : s.entry s.cr3 (PDX a) = ⟨0⟩) (hzero : s.RefCount t = 0) :
    Remapped L dirs tables (insert t tables) a none s (s.newTable s.cr3 a t rest) where
  cr3 := rfl
  grows := Finset.subset_insert ..
  pde d hd i _ hor := by
    have hdt : d ≠ t := by
      rintro rfl
      exact hfresh.notDir hd
    refine entry_newTable_of_ne hdt ?_
    rcases hor with hvalid | hor
    · refine not_and_or.mp ?_
      rintro ⟨rfl, rfl⟩
      rw [hempty] at hvalid
      cases hvalid
    · exact hor
  leaf d hd i hi j _ := by
    rw [hfresh.leaf_newTable h hcr hempty hd hi, setLeaf_same]
    exact leaf_of_none (by rw [hempty, target_zero])
  ram f hd ht _ := by
    refine ram_newTable ?_ ?_
    · rintro rfl
      exact ht (Finset.mem_insert_self ..)
    · rintro rfl
      exact hd hcr
  global := by
    funext k
    refine entry_newTable_of_ne hfresh.notGlobal.symm (Or.inl fun heq => ?_)
    exact L.global_notMem (heq ▸ h.dirs_managed _ hcr)
  kernel x hx j := by
    refine Or.inl (entry_newTable_of_ne ?_ (Or.inl ?_))
    · rintro rfl
      exact hfresh.notKernel hx
    · rintro rfl
      exact (h.table_apart (Or.inr hx)).1 hcr
  there p hp := by cases hp
  unused u hu hno := (Finset.mem_insert.mp hu).resolve_right hno ▸ hzero

/-- **What may be mapped**: a frame that is not free and no page directory. Only a new frame is given
to a process, and a frame that a process may write is given to nobody else. -/
structure Insertable (L : Layout) (dirs tables : Finset Nat) (s : State) (a pfn perm : Nat) : Prop where
  managed : pfn ∈ L.managed
  notFree : pfn ∉ s.PfnFreeList
  notDir : pfn ∉ dirs
  bound : perm < 4096
  copyOnWrite : perm.testBit 11 = false
  user : perm.testBit 2 = true → IsUserAddress a ∧ s.RefCount pfn = 0
  readers : ∀ t ∈ tables, ∀ j < NPTENTRIES, (s.entry t j).target = some pfn →
    (s.entry t j).UserPriv = true → (s.entry t j).Writable = false

/-- What is mapped is a page. -/
theorem Insertable.page (hi : Insertable L dirs tables s a pfn perm)
    (h : Ledger L dirs tables held out s) (ha : Mappable L dirs s a) (hpde : (s.pde a).Valid = true) :
    L.Page dirs tables (s.pde a).PageFrameNumber (.make pfn perm) := by
  have hframe : (MMPTE.make pfn perm).PageFrameNumber = pfn :=
    MMPTE.make_frame (L.bound pfn hi.managed).2 hi.bound
  obtain ⟨hvalid, -, huser, hcow⟩ := MMPTE.make_fields pfn perm
  refine ⟨hvalid, by rw [hframe]; exact hi.managed, fun hc => ?_, fun hu => ?_, fun _ => ?_⟩
  · rw [hcow, hi.copyOnWrite] at hc
    cases hc
  · rw [huser] at hu
    obtain ⟨haddr, hzero⟩ := hi.user hu
    rw [hframe]
    refine ⟨?_, (h.unreferred hi.managed hzero).2.2.2.1⟩
    rcases h.shape.slot ha hpde with ⟨-, -, hmem⟩ | ⟨hk, -⟩
    · exact hmem
    · have hlt := PDX_user haddr
      have hk' := hk.1
      have hle := userEntries_lt.1
      omega
  · rw [hframe]
    exact hi.notDir

/-- **A page is put where none was.** -/
theorem Ledger.putPage (h : Ledger L dirs tables held out s) (ha : Mappable L dirs s a)
    (hpde : (s.pde a).Valid = true) (hpte : s.pte a = ⟨0⟩)
    (hi : Insertable L dirs tables s a pfn perm) :
    Ledger L dirs tables held (out.erase pfn)
        (miIncReferencePFN pfn (s.setPte a (.make pfn perm)))
      ∧ Remapped L dirs tables tables a (some (.make pfn perm)) s
        (miIncReferencePFN pfn (s.setPte a (.make pfn perm))) := by
  have hframe : (MMPTE.make pfn perm).PageFrameNumber = pfn :=
    MMPTE.make_frame (L.bound pfn hi.managed).2 hi.bound
  obtain ⟨hvalid, -, huser, -⟩ := MMPTE.make_fields pfn perm
  have hinc := h.inc (f := pfn) hi.notFree hi.readers (fun _ => rfl)
  have hempty : (s.entry (s.pde a).PageFrameNumber (PTX a)).target = none := by
    rw [show s.entry (s.pde a).PageFrameNumber (PTX a) = ⟨0⟩ from hpte, target_zero]
  constructor
  · refine hinc.storePage (h.shape.slot_mem ha hpde) (PTX_lt a) (Or.inr (hi.page h ha hpde))
      (fun _ hu _ => ?_) fun g => ?_
    · rw [huser] at hu
      have hself : (miIncReferencePFN pfn s).RefCount pfn = s.RefCount pfn + 1 :=
        Function.update_self ..
      rw [hframe, hself, (hi.user hu).2]
    · have hiff : (if some pfn = some g then 1 else 0) = if g = pfn then 1 else 0 :=
        if_congr (by rw [Option.some.injEq, eq_comm]) rfl rfl
      have hold : ((miIncReferencePFN pfn s).entry (s.pde a).PageFrameNumber (PTX a)).target
          = none := hempty
      rw [hold, target_of_valid hvalid, hframe, hiff,
        if_neg (show ¬ none = some g from fun heq => by cases heq)]
      rfl
  · have hchange := h.shape.remapped ha hpde (p := .make pfn perm) fun d hd heq => by
      rw [target_of_valid hvalid, hframe] at heq
      exact hi.notDir (Option.some.inj heq ▸ hd)
    rw [if_pos hvalid] at hchange
    exact hchange.congr rfl rfl rfl rfl rfl

/-- What may be mapped may be mapped after another page has been removed. -/
theorem Insertable.removed (hi : Insertable L dirs tables s a pfn perm) (g : Nat) (hne : g ≠ pfn) :
    Insertable L dirs tables ((s.setPte a ⟨0⟩).dec g) a pfn perm := by
  refine ⟨hi.managed, ?_, hi.notDir, hi.bound, hi.copyOnWrite, fun hu => ?_, fun t ht j hj he => ?_⟩
  · intro hin
    rcases mem_dec hin with heq | hin
    · exact hne heq.symm
    · exact hi.notFree hin
  · have hother : ((s.setPte a ⟨0⟩).dec g).RefCount pfn = s.RefCount pfn :=
      Function.update_of_ne hne.symm ..
    rw [hother]
    exact hi.user hu
  · rw [entry_dec, State.setPte, entries_setEntry] at he ⊢
    by_cases hslot : t = (s.pde a).PageFrameNumber ∧ j = PTX a
    · obtain ⟨rfl, rfl⟩ := hslot
      rw [storeEntry_self, target_zero] at he
      cases he
    · rw [storeEntry_of_ne (not_and_or.mp hslot)] at he ⊢
      exact hi.readers t ht j hj he

/-- What may be mapped may be mapped when there is a new page table. -/
theorem Insertable.tabled (hi : Insertable L dirs tables s a pfn perm)
    (h : Ledger L dirs tables held out s) (hcr : s.cr3 ∈ dirs) (hfree : s.PfnFreeList = t :: rest) :
    Insertable L dirs (insert t tables) (s.newTable s.cr3 a t rest) a pfn perm := by
  obtain ⟨hmem, hzero, -⟩ := h.free t (hfree ▸ List.mem_cons_self ..)
  have hne : pfn ≠ t := by
    rintro rfl
    exact hi.notFree (hfree ▸ List.mem_cons_self ..)
  refine ⟨hi.managed, fun hin => hi.notFree (hfree ▸ List.mem_cons_of_mem t hin), hi.notDir, hi.bound,
    hi.copyOnWrite, fun hu => ?_, fun u hu j hj he => ?_⟩
  · have hother : (s.newTable s.cr3 a t rest).RefCount pfn = s.RefCount pfn :=
      Function.update_of_ne hne ..
    rw [hother]
    exact hi.user hu
  · by_cases hut : u = t
    · subst hut
      have hclear : (s.newTable s.cr3 a u rest).entry u j = ⟨0⟩ := entry_clearFrame_self
      rw [hclear, target_zero] at he
      cases he
    · have hmem' := (Finset.mem_insert.mp hu).resolve_left hut
      have hud : u ≠ s.cr3 := by
        rintro rfl
        exact h.shape.apart _ hcr hmem'
      have hsame : (s.newTable s.cr3 a t rest).entry u j = s.entry u j :=
        (entry_clearFrame_of_ne hut).trans (entry_setEntry_of_ne (Or.inl hud))
      rw [hsame] at he ⊢
      exact hi.readers u hmem' j hj he

/-- **A frame is put into a page table**, and what was mapped there is removed. -/
theorem Ledger.insertFrame (h : Ledger L dirs tables held out s) (ha : Mappable L dirs s a)
    (hpde : (s.pde a).Valid = true) (hi : Insertable L dirs tables s a pfn perm)
    (hne : (s.pte a).Valid = true →
      (s.pte a).PageFrameNumber ≠ pfn ∧ (s.pte a).PageFrameNumber ∉ dirs)
    (hrun : insertFrame s.cr3 a pfn perm s = .ok s') :
    Ledger L dirs tables held (out.erase pfn) s'
      ∧ Remapped L dirs tables tables a (some (.make pfn perm)) s s' := by
  have hframe : (s.pte a).PageFrameNumber ≠ pfn := by
    rcases h.shape.pte_cases ha hpde with hzero | hpage
    · rw [hzero, MMPTE.zero_fields.2]
      exact (Nat.ne_of_gt (L.bound pfn hi.managed).1).symm
    · exact (hne hpage.valid).1
  have hcr := h.shape.slot_ne ha hpde
  rcases insertFrame_ok hrun hframe with ⟨hzero, rfl⟩ | ⟨-, hpte, rfl⟩
  · exact h.putPage ha hpde (MMPTE.ext hzero) hi
  · obtain ⟨hledger, hchange⟩ := h.removePage ha hpde hpte (hne hpte).2
    have hpde' := pde_setPte (s := s) ⟨0⟩ a hcr
    obtain ⟨hledger', hchange'⟩ := hledger.putPage (a := a) ha (hpde' ▸ hpde) (pte_setPte _ hcr)
      (hi.removed _ (hne hpte).1)
    exact ⟨hledger', hchange.trans hchange'⟩

/-- **`MiInsertPage` keeps the ledger.** It fails only for want of a page table. -/
theorem Ledger.insertPage (h : Ledger L dirs tables held out s) (ha : Mappable L dirs s a)
    (hi : Insertable L dirs tables s a pfn perm)
    (hne : (s.pde a).Valid = true → (s.pte a).Valid = true →
      (s.pte a).PageFrameNumber ≠ pfn ∧ (s.pte a).PageFrameNumber ∉ dirs)
    (hrun : miInsertPage s.cr3 a pfn perm s = .ok (status, s')) :
    (status = .STATUS_NO_MEMORY ∧ s' = s ∧ s.PfnFreeList = [] ∧ (s.pde a).Valid = false)
      ∨ status = .STATUS_SUCCESS ∧ ∃ tables', Ledger L dirs tables' held (out.erase pfn) s'
        ∧ Remapped L dirs tables tables' a (some (.make pfn perm)) s s' := by
  have hbound : ∀ f ∈ s.PfnFreeList, f < 1048576 := fun f hf => (L.bound f (h.free f hf).1).2
  unfold miInsertPage at hrun
  rw [if_neg (fun hno => hno.1 rfl)] at hrun
  obtain ⟨⟨status₁, s₁⟩, htable, hrun⟩ := kernel_bind_eq_ok.mp hrun
  rcases insertPageTable_ok htable rfl hbound with ⟨hpde, rfl, rfl⟩ |
      ⟨hpde, huser, ⟨hfree, rfl, rfl⟩ | ⟨t, rest, hfree, rfl, rfl⟩⟩
  · obtain ⟨s₂, hframe, hrun⟩ := kernel_bind_eq_ok.mp hrun
    cases hrun
    exact Or.inr ⟨rfl, tables, h.insertFrame ha hpde hi (hne hpde) hframe⟩
  · cases hrun
    exact Or.inl ⟨rfl, rfl, hfree, hpde⟩
  · obtain ⟨s₂, hframe, hrun⟩ := kernel_bind_eq_ok.mp hrun
    cases hrun
    have hcr : s.cr3 ∈ dirs := by
      rcases ha with ha | ⟨hk, -⟩
      · exact ha.2
      · have hlt := PDX_user huser
        have hk' := hk.1
        have hle := userEntries_lt.1
        omega
    have hempty : s.entry s.cr3 (PDX a) = ⟨0⟩ := by
      refine (h.shape.table _ hcr _ (PDX_user huser)).resolve_right ?_
      rintro ⟨⟨u, -, hu⟩, -⟩
      rw [State.pde, (target_eq_some.mp hu).1] at hpde
      cases hpde
    have hin : t ∈ s.PfnFreeList := hfree ▸ List.mem_cons_self ..
    have hfresh := h.fresh hin
    have hledger := h.newTable hcr huser hempty hfree
    have hchange : Remapped L dirs tables _ a none s (s.newTable s.cr3 a t rest) :=
      hfresh.remapped h.shape.toDirectories hcr hempty (h.free t hin).2.1
    have hne : s.cr3 ≠ t := fun heq => hfresh.notDir (heq ▸ hcr)
    have hpde' : ((s.newTable s.cr3 a t rest).pde a).Valid = true := by
      rw [pde_newTable hne]
      exact (MMPTE.make_fields t userPerm).1
    have hpte' : (s.newTable s.cr3 a t rest).pte a = ⟨0⟩ := pte_newTable hne (hbound t hin)
    have hno : ((s.newTable s.cr3 a t rest).pte a).Valid ≠ true := by
      rw [hpte']
      decide
    obtain ⟨hledger', hchange'⟩ := hledger.insertFrame (a := a) ha hpde' (hi.tabled h hcr hfree)
      (fun hvalid => absurd hvalid hno) hframe
    exact Or.inr ⟨rfl, _, hledger', hchange.trans hchange'⟩

/-! ## The routines keep the ledger -/

/-- **What is mapped is no page directory**, if anything is mapped. -/
def NoDirectory (dirs : Finset Nat) (s : State) (a : Nat) : Prop :=
  (s.pde a).Valid = true → (s.pte a).Valid = true → (s.pte a).PageFrameNumber ∉ dirs

/-- A process maps no page directory. -/
theorem Ledger.noDirectory (h : Ledger L dirs tables held out s) (ha : IsUserAddress a)
    (hcr : s.cr3 ∈ dirs) : NoDirectory dirs s a := by
  intro hpde hpte
  have hmem := h.shape.target_mem hcr (PDX_user ha) (target_of_valid hpde)
  rcases h.shape.page _ (Or.inl hmem) _ (PTX_lt a) with hzero | hpage
  · rw [State.pte, show s.entry (s.pde a).PageFrameNumber (PTX a) = ⟨0⟩ from hzero] at hpte
    cases hpte
  · exact hpage.notDir hmem

/-- **`MiRemovePage` keeps the ledger.** -/
theorem Ledger.miRemovePage (h : Ledger L dirs tables held out s) (ha : Mappable L dirs s a)
    (hdir : NoDirectory dirs s a) (hrun : miRemovePage s.cr3 a s = .ok s') :
    Ledger L dirs tables held out s' ∧ Remapped L dirs tables tables a none s s' := by
  obtain ⟨-, hpde, hpte, rfl⟩ := miRemovePage_ok hrun
  exact h.removePage ha hpde hpte (hdir hpde hpte)

/-- **A frame is allocated and mapped.** -/
theorem Ledger.mapFresh (h : Ledger L dirs tables held out s) (ha : Mappable L dirs s a)
    (hfree : s.PfnFreeList = pfn :: rest) (hbound : perm < 4096) (hcow : perm.testBit 11 = false)
    (huser : perm.testBit 2 = true → IsUserAddress a) (hdir : NoDirectory dirs s a)
    (hrun : miInsertPage s.cr3 a pfn perm { s with PfnFreeList := rest } = .ok (.STATUS_SUCCESS, s')) :
    ∃ tables', Ledger L dirs tables' held out s'
      ∧ Remapped L dirs tables tables' a (some (.make pfn perm)) s s' := by
  obtain ⟨hmem, hzero, hout⟩ := h.free pfn (hfree ▸ List.mem_cons_self ..)
  obtain ⟨-, -, hnotDir, -, hfresh⟩ := h.unreferred hmem hzero
  have hi : Insertable L dirs tables { s with PfnFreeList := rest } a pfn perm :=
    ⟨hmem, (List.nodup_cons.mp (hfree ▸ h.nodup)).1, hnotDir, hbound, hcow,
      fun hu => ⟨huser hu, hzero⟩, fun u hu j hj heq => absurd heq (hfresh u (Or.inl hu) j hj)⟩
  have hne : (s.pde a).Valid = true → (s.pte a).Valid = true →
      (s.pte a).PageFrameNumber ≠ pfn ∧ (s.pte a).PageFrameNumber ∉ dirs := fun hpde hpte =>
    ⟨fun heq => hfresh _ (h.shape.slot_mem ha hpde) _ (PTX_lt a)
      (target_eq_some.mpr ⟨hpte, heq⟩), hdir hpde hpte⟩
  rcases (h.allocate hfree).insertPage (a := a) ha hi hne hrun with ⟨hstatus, -⟩ |
      ⟨-, tables', hledger, hchange⟩
  · cases hstatus
  · rw [Finset.erase_insert hout] at hledger
    exact ⟨tables', hledger, hchange.congr rfl rfl rfl rfl rfl⟩

/-- **Between the user half and the kernel half nothing can be mapped.** -/
theorem Ledger.hole (h : Ledger L dirs tables held out s) (hcr : s.cr3 ∈ dirs)
    (hlo : userEntries ≤ PDX a) (hhi : PDX a < kernelEntry) (ha : ¬ IsUserAddress a)
    (r : KSTATUS × State) : miInsertPage s.cr3 a pfn perm s ≠ .ok r := by
  intro hrun
  have hpde : s.pde a = ⟨0⟩ := h.shape.top _ hcr _ hlo hhi
  have hvalid : ¬ (s.pde a).Valid = true := by
    rw [hpde]
    decide
  unfold miInsertPage at hrun
  rw [if_neg (fun hno => hno.1 rfl)] at hrun
  obtain ⟨r₁, htable, -⟩ := kernel_bind_eq_ok.mp hrun
  unfold insertPageTable at htable
  rw [if_neg hvalid] at htable
  obtain ⟨_, hassert, -⟩ := kernel_bind_eq_ok.mp htable
  exact ha (assert_eq_ok.mp hassert)

end KaushOS.Paging
