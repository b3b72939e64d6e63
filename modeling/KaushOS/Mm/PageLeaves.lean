import KaushOS.Mm.PageLedger

/-! # What an address space maps

The entries of all page tables as what they mean: the page that a directory maps at each pair of
indices. A page table belongs to one directory, so that a store to it changes one page of one address
space.

* **`leaf`** — the page with the indices `i` and `j` of the user half of a directory.
* **`leaf_storePage`** — a store changes that page, and no other page of any address space.
* **`leaf_removeTable`** — an empty page table maps nothing.
* **`Ledger.writeData`** — what a process may access is neither a page table nor a page directory. -/

namespace KaushOS.Paging

/-- **The page** at the indices `i` and `j` of the directory `d`. -/
def leaf (E : Entries) (d i j : Nat) : Option MMPTE :=
  (E d i).target.bind fun t => if (E t j).Valid then some (E t j) else none

/-- The pages of all address spaces after one of them has been set. -/
def setLeaf (m : Nat → Nat → Nat → Option MMPTE) (d i j : Nat) (p : Option MMPTE) :
    Nat → Nat → Nat → Option MMPTE :=
  fun d' i' j' => if d' = d ∧ i' = i ∧ j' = j then p else m d' i' j'

variable {L : Layout} {dirs tables : Finset Nat} {E E' : Entries} {a d d' f t x i i' j j' : Nat}
  {p : MMPTE} {o : Option MMPTE} {m : Nat → Nat → Nat → Option MMPTE} {held : Nat → Nat}
  {out : Finset Nat} {s s' : State}

@[simp] theorem setLeaf_self : setLeaf m d i j o d i j = o := if_pos ⟨rfl, rfl, rfl⟩

theorem setLeaf_of_ne (h : ¬ (d' = d ∧ i' = i ∧ j' = j)) : setLeaf m d i j o d' i' j' = m d' i' j' :=
  if_neg h

/-- Setting a page to what it is. -/
theorem setLeaf_same {o : Option MMPTE} (h : m d i j = o) : setLeaf m d i j o = m := by
  funext d' i' j'
  by_cases hslot : d' = d ∧ i' = i ∧ j' = j
  · obtain ⟨rfl, rfl, rfl⟩ := hslot
    rw [setLeaf_self, h]
  · rw [setLeaf_of_ne hslot]

/-- The page behind a page table. -/
theorem leaf_of_table (ht : (E d i).target = some t) :
    leaf E d i j = if (E t j).Valid then some (E t j) else none := by
  rw [leaf, ht]
  rfl

/-- There is no page where there is no page table. -/
theorem leaf_of_none (ht : (E d i).target = none) : leaf E d i j = none := by
  rw [leaf, ht]
  rfl

/-- A page is an entry of a page table. -/
theorem leaf_eq_some (h : leaf E d i j = some p) :
    ∃ t, (E d i).target = some t ∧ E t j = p ∧ p.Valid = true := by
  unfold leaf at h
  obtain ⟨t, ht, hpage⟩ := Option.bind_eq_some_iff.mp h
  split at hpage
  · rename_i hvalid
    cases hpage
    exact ⟨t, ht, rfl, hvalid⟩
  · cases hpage

/-- Only the entries of the directory and of its page tables matter. -/
theorem leaf_congr (hd : E' d i = E d i) (ht : ∀ t, (E d i).target = some t → E' t j = E t j) :
    leaf E' d i j = leaf E d i j := by
  cases htarget : (E d i).target with
  | none => rw [leaf_of_none htarget, leaf_of_none (hd ▸ htarget)]
  | some t => rw [leaf_of_table htarget, leaf_of_table (hd ▸ htarget), ht t htarget]

/-- **A store to the page table with the index `i` of the directory `d`** changes one page. -/
theorem leaf_storePage (h : Directories L dirs tables E) (hd : d ∈ dirs) (hi : i < userEntries)
    (ht : (E d i).target = some t) (hd' : d' ∈ dirs) (hi' : i' < userEntries) :
    leaf (storeEntry E t j p) d' i' j'
      = setLeaf (leaf E) d i j (if p.Valid then some p else none) d' i' j' := by
  have hmem := h.target_mem hd hi ht
  have hrow : storeEntry E t j p d' i' = E d' i' :=
    storeEntry_of_ne (Or.inl fun heq => h.apart d' hd' (heq ▸ hmem))
  by_cases hslot : d' = d ∧ i' = i ∧ j' = j
  · obtain ⟨rfl, rfl, rfl⟩ := hslot
    rw [setLeaf_self, leaf_of_table (hrow ▸ ht), storeEntry_self]
  · rw [setLeaf_of_ne hslot]
    refine leaf_congr hrow fun u hu => storeEntry_of_ne ?_
    by_contra hno
    obtain ⟨rfl, rfl⟩ : u = t ∧ j' = j := by
      rw [← not_and_or, not_not] at hno
      exact hno
    obtain ⟨rfl, rfl⟩ := h.unique d' hd' i' hi' d hd i hi u hmem hu ht
    exact hslot ⟨rfl, rfl, rfl⟩

/-- A store to another frame than the directories and their page tables changes no page. -/
theorem leaf_storeOther (h : Directories L dirs tables E) (hx : x ∉ dirs) (hx' : x ∉ tables)
    (hd : d ∈ dirs) (hi : i < userEntries) : leaf (storeEntry E x j p) d i j' = leaf E d i j' := by
  refine leaf_congr (storeEntry_of_ne (Or.inl ?_)) fun t ht => storeEntry_of_ne (Or.inl ?_)
  · rintro rfl
    exact hx hd
  · rintro rfl
    exact hx' (h.target_mem hd hi ht)

/-- A page table that is empty may go. -/
theorem leaf_removeTable (h : Directories L dirs tables E) (hd : d ∈ dirs)
    (ht : (E d i).target = some t) (hclear : ∀ j < NPTENTRIES, (E t j).target = none) (hd' : d' ∈ dirs)
    (hi' : i' < userEntries) (hj : j < NPTENTRIES) :
    leaf (storeEntry E d i ⟨0⟩) d' i' j = leaf E d' i' j := by
  by_cases hslot : d' = d ∧ i' = i
  · obtain ⟨rfl, rfl⟩ := hslot
    have hnone : ¬ (E t j).Valid = true := fun hvalid => by
      have htarget := hclear j hj
      rw [target_of_valid hvalid] at htarget
      cases htarget
    rw [leaf_of_none (by rw [storeEntry_self, target_zero]), leaf_of_table ht, if_neg hnone]
  · refine leaf_congr (storeEntry_of_ne (not_and_or.mp hslot)) fun u hu =>
      storeEntry_of_ne (Or.inl ?_)
    rintro rfl
    exact h.apart u hd (h.target_mem hd' hi' hu)

/-! ## Addresses -/

/-- There is no page where the entry is not valid. -/
theorem leaf_of_pte (hv : (s.pte a).Valid = false) :
    leaf s.entry s.cr3 (PDX a) (PTX a) = none := by
  cases htarget : (s.entry s.cr3 (PDX a)).target with
  | none => exact leaf_of_none htarget
  | some t =>
    have hframe : (s.pde a).PageFrameNumber = t := (target_eq_some.mp htarget).2
    rw [State.pte, hframe] at hv
    rw [leaf_of_table htarget, if_neg (by rw [hv]; decide)]

/-- The entry at an address, from the page there. -/
theorem pte_of_leaf (h : leaf s.entry s.cr3 (PDX a) (PTX a) = some p) :
    (s.pde a).Valid = true ∧ s.pte a = p ∧ p.Valid = true := by
  obtain ⟨t, ht, hpage, hvalid⟩ := leaf_eq_some h
  obtain ⟨hpde, hframe⟩ := target_eq_some.mp ht
  refine ⟨hpde, ?_, hvalid⟩
  rw [State.pte, show (s.pde a).PageFrameNumber = t from hframe, hpage]

/-- The page at an address, from the entry there. -/
theorem leaf_of_pte_valid (hpde : (s.pde a).Valid = true) (hpte : (s.pte a).Valid = true) :
    leaf s.entry s.cr3 (PDX a) (PTX a) = some (s.pte a) := by
  have ht : (s.entry s.cr3 (PDX a)).target = some (s.pde a).PageFrameNumber := target_of_valid hpde
  rw [leaf_of_table ht]
  exact if_pos hpte

/-! ## Data -/

/-- **A frame of data**: neither a page table nor a page directory. -/
structure IsData (L : Layout) (dirs tables : Finset Nat) (f : Nat) : Prop where
  notDir : f ∉ dirs
  notTable : f ∉ tables
  notKernel : f ∉ L.kernel
  notGlobal : f ≠ L.globalPgdir

/-- What an address space maps is a page. -/
theorem Shape.leaf_page (h : Shape L dirs tables E) (hd : d ∈ dirs) (hi : i < userEntries)
    (hj : j < NPTENTRIES) (hleaf : leaf E d i j = some p) : ∃ t ∈ tables, L.Page dirs tables t p := by
  obtain ⟨t, ht, rfl, hvalid⟩ := leaf_eq_some hleaf
  have hmem := h.target_mem hd hi ht
  refine ⟨t, hmem, (h.page t (Or.inl hmem) j hj).resolve_left fun hzero => ?_⟩
  rw [hzero] at hvalid
  cases hvalid

/-- What a process may access is data. -/
theorem Shape.isData (h : Shape L dirs tables E) (hd : d ∈ dirs) (hi : i < userEntries)
    (hj : j < NPTENTRIES) (hleaf : leaf E d i j = some p) (hu : p.UserPriv = true) :
    IsData L dirs tables p.PageFrameNumber ∧ p.PageFrameNumber ∈ L.managed := by
  obtain ⟨t, ht, hpage⟩ := h.leaf_page hd hi hj hleaf
  refine ⟨⟨hpage.notDir ht, (hpage.user hu).2, fun hin => ?_, fun heq => ?_⟩, hpage.managed⟩
  · exact L.kernel_notMem _ hin hpage.managed
  · exact L.global_notMem (heq ▸ hpage.managed)

/-- **What a process may write**, nobody else maps. -/
theorem Ledger.leaf_unique {q : MMPTE} (h : Ledger L dirs tables held out s) (hd : d ∈ dirs)
    (hi : i < userEntries) (hj : j < NPTENTRIES) (hp : leaf s.entry d i j = some p)
    (hu : p.UserPriv = true) (hw : p.Writable = true) (hd' : d' ∈ dirs) (hi' : i' < userEntries)
    (hj' : j' < NPTENTRIES) (hq : leaf s.entry d' i' j' = some q)
    (hframe : q.PageFrameNumber = p.PageFrameNumber) : d' = d ∧ i' = i ∧ j' = j := by
  obtain ⟨t, ht, rfl, hvalid⟩ := leaf_eq_some hp
  obtain ⟨t', ht', rfl, hvalid'⟩ := leaf_eq_some hq
  have hmem := h.shape.target_mem hd hi ht
  have hmem' := h.shape.target_mem hd' hi' ht'
  have htarget := target_of_valid hvalid
  have htarget' := target_of_valid hvalid'
  rw [hframe] at htarget'
  have hone := h.exclusive t hmem j hj hvalid hu hw
  have hcount := h.count _ (h.page_managed (Or.inl hmem) hj htarget).1
  obtain ⟨rfl, rfl⟩ := refs_unique h.shape.toDirectories (by omega) (Or.inl hmem') (Or.inl hmem) hj' hj
    htarget' htarget
  obtain ⟨rfl, rfl⟩ := h.shape.unique d' hd' i' hi' d hd i hi t' hmem ht' ht
  exact ⟨rfl, rfl, rfl⟩

/-- **The contents of a user page** of the directory `d`. -/
def State.contents (s : State) (d i j : Nat) : Option (Nat → BitVec 8) :=
  (leaf s.entry d i j).bind fun p =>
    if p.UserPriv then some (s.ram p.PageFrameNumber) else none

/-- **The contents of a page are kept** when it stays in its frame and the frame is not written. -/
theorem contents_of_leaf (g : MMPTE → MMPTE)
    (hleaf : leaf s'.entry d i j = (leaf s.entry d' i' j').map g)
    (hsame : ∀ p, leaf s.entry d' i' j' = some p → (g p).UserPriv = p.UserPriv
      ∧ (g p).PageFrameNumber = p.PageFrameNumber)
    (hram : ∀ p, leaf s.entry d' i' j' = some p → p.UserPriv = true →
      s'.ram p.PageFrameNumber = s.ram p.PageFrameNumber) : s'.contents d i j = s.contents d' i' j' := by
  unfold State.contents
  rw [hleaf]
  cases hpage : leaf s.entry d' i' j' with
  | none => rfl
  | some p =>
    obtain ⟨huser, hframe⟩ := hsame p hpage
    rw [Option.map_some, Option.bind_some, Option.bind_some, huser, hframe]
    split
    · rename_i hu
      rw [hram p hpage hu]
    · rfl

/-- **Data is kept** when page tables and page directories are written. -/
theorem Shape.contents_kept (h : Shape L dirs tables E) (hd : d ∈ dirs) (hi : i < userEntries)
    (hj : j < NPTENTRIES) (hE : leaf E d i j = leaf s.entry d i j)
    (hleaf : leaf s'.entry d i j = leaf s.entry d i j)
    (hram : ∀ f, f ∉ dirs → f ∉ tables → f ∉ L.kernel → s'.ram f = s.ram f) :
    s'.contents d i j = s.contents d i j := by
  refine contents_of_leaf id (by rw [hleaf, Option.map_id, id]) (fun _ _ => ⟨rfl, rfl⟩)
    fun p hp hu => ?_
  obtain ⟨hdata, -⟩ := h.isData hd hi hj (hE.trans hp) hu
  exact hram _ hdata.notDir hdata.notTable hdata.notKernel

/-- **Data may be written.** -/
theorem Ledger.writeData (h : Ledger L dirs tables held out s) (hf : IsData L dirs tables f)
    (hram : ∀ x, x ≠ f → s'.ram x = s.ram x) (hfree : s'.PfnFreeList = s.PfnFreeList)
    (href : s'.RefCount = s.RefCount) : Ledger L dirs tables held out s' := by
  have hentry : ∀ x, x ≠ f → s'.entry x = s.entry x := by
    intro x hx
    funext k
    exact congrArg MMPTE.mk (PhysicalMemory.word_congr (hram x hx) k)
  refine h.congr hfree href (fun d hd => hentry d ?_) fun x hx => hentry x ?_
  · rintro rfl
    exact hd.elim hf.notDir hf.notGlobal
  · rintro rfl
    exact hx.elim hf.notTable hf.notKernel

/-- Writing data does not change what the address spaces map. -/
theorem Directories.leaf_writeData (h : Directories L dirs tables s.entry)
    (hf : IsData L dirs tables f) (hram : ∀ x, x ≠ f → s'.ram x = s.ram x) (hd : d ∈ dirs)
    (hi : i < userEntries) : leaf s'.entry d i j = leaf s.entry d i j := by
  have hentry : ∀ x k, x ≠ f → s'.entry x k = s.entry x k := fun x k hx =>
    congrArg MMPTE.mk (PhysicalMemory.word_congr (hram x hx) k)
  refine leaf_congr (hentry d i ?_) fun t ht => hentry t j ?_
  · rintro rfl
    exact hf.notDir hd
  · rintro rfl
    exact hf.notTable (h.target_mem hd hi ht)

end KaushOS.Paging
