import KaushOS.Library.PagedSpace
import KaushOS.Mm.PageAside

/-! # The pages of a process that shares nothing

The address space of a process into which a program is loaded: every page that it has is its own, and
nobody else's. Then `MmMapSegment` does to the user half what mapping a page does to a space of pages,
and it can be said exactly when it succeeds.

* **`Private`** — the loaded address space is a space of pages, and what is not part of it is as it was
  in the state `s₀` before.
* **`Unmapped`** — a process to which nothing has been mapped starts like this.
* **`Private.mapPage`** — one pass of `MmMapSegment`.
* **`Private.storeByte`** — a byte is stored.
* **`Private.user_page`, `Private.kernel_byte`** — what is read in the two halves. -/

namespace KaushOS.Paging

variable {s s' s₀ : State} {m m' : PagedSpace (BitVec 8)} {use : Nat → FrameUse} {a f g i j p t : Nat}
  {rest : List Nat} {b : BitVec 8}

/-! ## Entries -/

/-- The entry for a page table or a page of the user half. -/
def userEntry : Option Nat → MMPTE
  | none => ⟨0⟩
  | some f => .make f userPerm

/-- An entry is valid when it is for something. -/
theorem userEntry_valid (o : Option Nat) : (userEntry o).Valid = o.isSome := by
  cases o with
  | none => exact MMPTE.zero_fields.1
  | some f => exact (MMPTE.make_fields f userPerm).1

/-- The frame of an entry. -/
theorem userEntry_frame (hf : f < 1048576) : (userEntry (some f)).PageFrameNumber = f :=
  MMPTE.make_frame hf (by decide)

/-- **The indices of a user address** make the number of its page. -/
theorem user_indices (ha : IsUserAddress a) : PDX a = a / PGSIZE / NPTENTRIES
    ∧ PDX a * NPTENTRIES + PTX a = a / PGSIZE := by
  simp only [IsUserAddress, USERTOP, PDX, PTX, PTSIZE, PGSIZE, NPTENTRIES] at *
  omega

/-- The indices of different pages are different. -/
theorem index_inj (hj : j < NPTENTRIES) (h : i * NPTENTRIES + j = PDX a * NPTENTRIES + PTX a) :
    i = PDX a ∧ j = PTX a := by
  have hlt := PTX_lt a
  simp only [NPTENTRIES] at *
  omega

/-! ## The address space -/

/-- **The loaded address space is a space of pages**: `use` says what the frames are used for. What has
not been stored to is as it was in the state `s₀`. -/
structure Private (s₀ s : State) (m : PagedSpace (BitVec 8)) (use : Nat → FrameUse) : Prop extends
    m.Separated use where
  list : s.PfnFreeList = m.free
  cr3 : s.cr3 = s₀.cr3
  root : use s.cr3 = .root
  bound : ∀ f, use f ≠ .other → 0 < f ∧ f < 1048576
  idle : ∀ f ∈ m.free, s.RefCount f = 0
  owned : ∀ p f, m.page p = some f → s.RefCount f = 1
  tables : ∀ i < userEntries, s.entry s.cr3 i = userEntry (m.table i)
  pages : ∀ i < userEntries, ∀ t, m.table i = some t → ∀ j < NPTENTRIES,
    s.entry t j = userEntry (m.page (i * NPTENTRIES + j))
  unmapped : ∀ p, m.table (p / NPTENTRIES) = none → m.page p = none
  half : ∀ i, userEntries ≤ i → s.entry s.cr3 i = s₀.entry s₀.cr3 i
  others : ∀ f, f ∉ s₀.PfnFreeList → f ≠ s₀.cr3 → use f = .other
  bytes : ∀ f, use f ≠ .root → (∀ i, use f ≠ .table i) → ∀ x,
    s.ram f x = (m.stored f x).getD (s₀.ram f x)
  unstored : ∀ f, use f = .other → ∀ x, m.stored f x = none

/-- The entry of the page directory. -/
theorem Private.pde (h : Private s₀ s m use) (ha : IsUserAddress a) :
    s.pde a = userEntry (m.table (PDX a)) := h.tables _ (PDX_user ha)

/-- The entry of the page table. -/
theorem Private.pte (h : Private s₀ s m use) (ha : IsUserAddress a) (ht : m.table (PDX a) = some t) :
    (s.pde a).PageFrameNumber = t ∧ s.pte a = userEntry (m.page (a / PGSIZE)) := by
  have hother : use t ≠ .other := by
    rw [h.table _ t ht]
    simp
  have hframe : (s.pde a).PageFrameNumber = t := by
    rw [h.pde ha, ht, userEntry_frame (h.bound t hother).2]
  refine ⟨hframe, ?_⟩
  rw [State.pte, hframe, h.pages _ (PDX_user ha) t ht _ (PTX_lt a), (user_indices ha).2]

/-- What a page is in has a bound. -/
theorem Private.page_bound (h : Private s₀ s m use) (hp : m.page p = some f) : f < 1048576 := by
  refine (h.bound f ?_).2
  rw [h.page p f hp]
  simp

/-- **A user page is present when it has been mapped.** -/
theorem Private.user_present (h : Private s₀ s m use) (ha : IsUserAddress a) :
    ((s.pde a).Valid = true ∧ (s.pte a).Valid = true) ↔ m.page (a / PGSIZE) ≠ none := by
  cases ht : m.table (PDX a) with
  | none =>
    have hnone : m.page (a / PGSIZE) = none := h.unmapped _ ((user_indices ha).1 ▸ ht)
    rw [h.pde ha, ht, userEntry_valid, hnone]
    simp
  | some t =>
    rw [(h.pte ha ht).2, h.pde ha, ht, userEntry_valid, userEntry_valid]
    cases m.page (a / PGSIZE) <;> simp

/-- **A user page is in its frame**, and its bytes are known. -/
theorem Private.user_page (h : Private s₀ s m use) (ha : IsUserAddress a)
    (hf : m.page (a / PGSIZE) = some f) : s.physical a = f
      ∧ ∀ x, s.ram f x = (m.stored f x).getD (s₀.ram f x) := by
  obtain ⟨t, ht⟩ : ∃ t, m.table (PDX a) = some t := by
    refine Option.ne_none_iff_exists'.mp fun hnone => ?_
    rw [h.unmapped _ ((user_indices ha).1 ▸ hnone)] at hf
    cases hf
  have huse := h.page _ f hf
  refine ⟨?_, h.bytes f (by rw [huse]; simp) (by rw [huse]; simp)⟩
  rw [State.physical, (h.pte ha ht).2, hf, userEntry_frame (h.page_bound hf)]

/-- **A frame that is not part of the address space** is as it was. -/
theorem Private.other_frame (h : Private s₀ s m use) (hfree : f ∉ s₀.PfnFreeList) (hcr : f ≠ s₀.cr3) :
    s.ram f = s₀.ram f := by
  have huse := h.others f hfree hcr
  funext x
  rw [h.bytes f (by rw [huse]; simp) (by rw [huse]; simp), h.unstored f huse, Option.getD_none]

/-- **An address in the kernel half is where it was**, and so is its byte, if neither its page nor its
page table is in a free frame. -/
theorem Private.kernel_page (h : Private s₀ s m use) (ha : userEntries ≤ PDX a)
    (htable : (s₀.pde a).PageFrameNumber ∉ s₀.PfnFreeList ∧ (s₀.pde a).PageFrameNumber ≠ s₀.cr3)
    (hpage : s₀.physical a ∉ s₀.PfnFreeList ∧ s₀.physical a ≠ s₀.cr3) :
    s.pde a = s₀.pde a ∧ s.pte a = s₀.pte a ∧ s.ram (s.physical a) = s₀.ram (s₀.physical a) := by
  have hpde : s.pde a = s₀.pde a := h.half _ ha
  have hpte : s.pte a = s₀.pte a := by
    rw [State.pte, State.pte, hpde]
    exact congrArg MMPTE.mk (PhysicalMemory.word_congr (h.other_frame htable.1 htable.2) _)
  refine ⟨hpde, hpte, ?_⟩
  rw [State.physical, hpte]
  exact h.other_frame hpage.1 hpage.2

/-! ## Storing a byte -/

/-- **A byte is stored.** -/
theorem Private.storeByte (h : Private s₀ s m use) (ha : IsUserAddress a)
    (hf : m.page (a / PGSIZE) = some f) :
    Private s₀ { s with ram := PhysicalMemory.storeByte s.ram (s.physical a) (a % PGSIZE) b }
      (m.put f (a % PGSIZE) b) use := by
  have huse := h.page _ f hf
  rw [(h.user_page ha hf).1]
  have hram : ∀ x, use x ≠ .page (a / PGSIZE) →
      PhysicalMemory.storeByte s.ram f (a % PGSIZE) b x = s.ram x := by
    intro x hx
    refine Function.update_of_ne ?_ ..
    rintro rfl
    exact hx huse
  have hentry : ∀ x j, use x ≠ .page (a / PGSIZE) →
      ({ s with ram := PhysicalMemory.storeByte s.ram f (a % PGSIZE) b } : State).entry x j
        = s.entry x j := fun x j hx => congrArg MMPTE.mk (PhysicalMemory.word_congr (hram x hx) j)
  have hroot : use s.cr3 ≠ .page (a / PGSIZE) := by
    rw [h.root]
    simp
  refine
    { nodup := h.nodup, free := h.free, table := h.table, page := h.page, list := h.list, cr3 := h.cr3
      root := h.root, bound := h.bound, idle := h.idle, owned := h.owned
      unmapped := h.unmapped, others := h.others
      tables := fun i hi => (hentry _ i hroot).trans (h.tables i hi)
      pages := fun i hi t ht j hj => ?_
      half := fun i hi => (hentry _ i hroot).trans (h.half i hi)
      bytes := fun g hg hg' x => ?_
      unstored := fun g hg x => ?_ }
  · refine (hentry t j ?_).trans (h.pages i hi t ht j hj)
    rw [h.table i t ht]
    simp
  · have hnew : PhysicalMemory.storeByte s.ram f (a % PGSIZE) b g x
        = if g = f ∧ x = a % PGSIZE then b else s.ram g x := by
      by_cases hgf : g = f
      · subst hgf
        by_cases hx : x = a % PGSIZE <;> simp [PhysicalMemory.storeByte, hx]
      · simp [PhysicalMemory.storeByte, hgf]
    show PhysicalMemory.storeByte s.ram f (a % PGSIZE) b g x = _
    rw [PagedSpace.put_stored, hnew, h.bytes g hg hg' x]
    split <;> simp
  · rw [PagedSpace.put_stored, h.unstored g hg, if_neg]
    rintro ⟨rfl, -⟩
    rw [huse] at hg
    cases hg

/-! ## Mapping a page -/

/-- The state after a page has been linked: the entry of the page table `t` is stored, the first free
frame is taken, and the old frame `o` of the page is free. -/
structure Linked (s : State) (a f t : Nat) (o : Option Nat) (rest : List Nat) (s' : State) : Prop where
  cr3 : s'.cr3 = s.cr3
  list : s'.PfnFreeList = o.toList ++ rest
  entry : ∀ x j, s'.entry x j = if x = t ∧ j = PTX a then .make f userPerm else s.entry x j
  ram : ∀ x, x ≠ t → s'.ram x = s.ram x
  count : ∀ x, s'.RefCount x = if x = f then 1 else if o = some x then 0 else s.RefCount x

/-- **A page is linked.** -/
theorem Private.link (h : Private s₀ s m use) (ha : IsUserAddress a) (ht : m.table (PDX a) = some t)
    (hfree : m.free = f :: rest) (hs' : Linked s a f t (m.page (a / PGSIZE)) rest s') :
    Private s₀ s' (m.link (a / PGSIZE) f rest) (m.relabel (a / PGSIZE) f use) := by
  have hf : use f = .free := h.free f (hfree ▸ List.mem_cons_self ..)
  have htable := h.table _ t ht
  have hsep := h.toSeparated.link (p := a / PGSIZE) hfree
  have hkeep : ∀ x, use x ≠ .free → use x ≠ .page (a / PGSIZE) →
      m.relabel (a / PGSIZE) f use x = use x := fun x => h.toSeparated.relabel_of_ne hfree
  have hroot : m.relabel (a / PGSIZE) f use s.cr3 = .root := by
    rw [hkeep _ (by rw [h.root]; simp) (by rw [h.root]; simp), h.root]
  have hcr : s.cr3 ≠ t := by
    intro heq
    rw [← heq, h.root] at htable
    cases htable
  have hdir : ∀ i, s'.entry s.cr3 i = s.entry s.cr3 i := fun i => by
    rw [hs'.entry, if_neg fun hno => hcr hno.1]
  refine
    { toSeparated := hsep, list := hs'.list, cr3 := hs'.cr3.trans h.cr3
      root := hs'.cr3.symm ▸ hroot
      bound := fun x hx => h.bound x fun hno => hx ?_
      idle := fun x hx => ?_
      owned := fun q x hx => ?_
      tables := fun i hi => by rw [hs'.cr3, hdir]; exact h.tables i hi
      pages := fun i hi u hu j hj => ?_
      unmapped := fun q hq => ?_
      half := fun i hi => by rw [hs'.cr3, hdir]; exact h.half i hi
      others := fun x hx hx' => ?_
      bytes := fun x hx hx' y => ?_
      unstored := fun x hx => h.unstored x ?_ }
  · rw [hkeep x (by rw [hno]; simp) (by rw [hno]; simp), hno]
  -- what is free has no references
  · have hxf : x ≠ f := by
      rintro rfl
      have heq := (hsep.free x hx).symm.trans (hsep.page _ x PagedSpace.link_page_self)
      cases heq
    rw [hs'.count, if_neg hxf]
    split
    · rfl
    · rename_i hold
      refine h.idle x (hfree ▸ List.mem_cons_of_mem f ?_)
      exact (List.mem_append.mp hx).resolve_left fun hin => hold (Option.mem_toList.mp hin)
  · rw [hs'.count]
    by_cases hq : q = a / PGSIZE
    · subst hq
      rw [if_pos (Option.some.inj (PagedSpace.link_page_self.symm.trans hx)).symm]
    · have hx' : m.page q = some x := (PagedSpace.link_page_of_ne hq).symm.trans hx
      have hxf : x ≠ f := by
        rintro rfl
        exact h.page_notFree hx' (hfree ▸ List.mem_cons_self ..)
      rw [if_neg hxf, if_neg fun hold => hq (h.page_inj hx' hold), h.owned q x hx']
  -- the entry of the page, and the others
  · have hu' : m.table i = some u := hu
    obtain ⟨hpdx, hindex⟩ := user_indices ha
    rw [hs'.entry]
    by_cases hslot : u = t ∧ j = PTX a
    · obtain ⟨rfl, rfl⟩ := hslot
      have hi : i = PDX a := by
        have heq := (h.table i u hu').symm.trans htable
        cases heq
        rfl
      rw [if_pos ⟨rfl, rfl⟩, hi, hindex, PagedSpace.link_page_self]
      rfl
    · have hne : i * NPTENTRIES + j ≠ a / PGSIZE := by
        rw [← hindex]
        intro heq
        obtain ⟨rfl, rfl⟩ := index_inj hj heq
        exact hslot ⟨Option.some.inj (hu'.symm.trans ht), rfl⟩
      rw [if_neg hslot, PagedSpace.link_page_of_ne hne, h.pages i hi u hu' j hj]
  · have hne : q ≠ a / PGSIZE := by
      rintro rfl
      have hnone : m.table (PDX a) = none := (user_indices ha).1 ▸ hq
      rw [hnone] at ht
      cases ht
    rw [PagedSpace.link_page_of_ne hne]
    exact h.unmapped q hq
  · have huse := h.others x hx hx'
    rw [hkeep x (by rw [huse]; simp) (by rw [huse]; simp), huse]
  · have hxt : x ≠ t := by
      rintro rfl
      exact hx' (PDX a) (by rw [hkeep x (by rw [htable]; simp) (by rw [htable]; simp), htable])
    rw [hs'.ram x hxt]
    refine h.bytes x (fun hno => hx ?_) (fun i hno => hx' i ?_) y
    · rw [hkeep x (by rw [hno]; simp) (by rw [hno]; simp), hno]
    · rw [hkeep x (by rw [hno]; simp) (by rw [hno]; simp), hno]
  · unfold PagedSpace.relabel at hx
    split at hx
    · cases hx
    · split at hx
      · cases hx
      · exact hx

/-- **A page table is added.** -/
theorem Private.addTable (h : Private s₀ s m use) (ha : IsUserAddress a)
    (hnone : m.table (PDX a) = none) (hfree : m.free = f :: t :: rest) :
    Private s₀ { s.newTable s.cr3 a t rest with PfnFreeList := f :: rest }
      (m.addTable (PDX a) f t rest) (Function.update use t (.table (PDX a))) := by
  have ht : use t = .free := h.free t (by simp [hfree])
  have hsep := h.toSeparated.addTable (i := PDX a) hfree
  have hkeep : ∀ x, use x ≠ .free → Function.update use t (.table (PDX a)) x = use x := by
    intro x hx
    refine Function.update_of_ne ?_ ..
    rintro rfl
    exact hx ht
  have hcr : s.cr3 ≠ t := by
    intro heq
    rw [← heq, h.root] at ht
    cases ht
  have huser := PDX_user ha
  -- of the page directory one entry has changed
  have hdir : ∀ i, i ≠ PDX a → (s.newTable s.cr3 a t rest).entry s.cr3 i = s.entry s.cr3 i :=
    fun i hi => entry_newTable_of_ne hcr (Or.inr hi)
  refine
    { toSeparated := hsep, list := rfl, cr3 := h.cr3
      root := (hkeep s.cr3 (by rw [h.root]; simp)).trans h.root
      bound := fun x hx => ?_
      idle := fun x hx => ?_
      owned := fun q x hx => ?_
      tables := fun i hi => ?_
      pages := fun i hi u hu j hj => ?_
      unmapped := fun q hq => h.unmapped q ?_
      half := fun i hi => (hdir i (by omega)).trans (h.half i hi)
      others := fun x hx hx' => ?_
      bytes := fun x hx hx' y => ?_
      unstored := fun x hx => h.unstored x ?_ }
  · by_cases hxt : x = t
    · subst hxt
      exact h.bound x (by rw [ht]; simp)
    · exact h.bound x (by rwa [Function.update_of_ne hxt] at hx)
  · have hxt : x ≠ t := by
      rintro rfl
      have heq := (hsep.free x hx).symm.trans (Function.update_self ..)
      cases heq
    have hmem : x ∈ m.free := by
      rw [hfree]
      exact (List.mem_cons.mp hx).elim (fun heq => heq ▸ List.mem_cons_self ..)
        fun hin => List.mem_cons_of_mem f (List.mem_cons_of_mem t hin)
    exact (Function.update_of_ne hxt ..).trans (h.idle x hmem)
  · have hxt : x ≠ t := by
      rintro rfl
      have heq := (h.page q x hx).symm.trans ht
      cases heq
    exact (Function.update_of_ne hxt ..).trans (h.owned q x hx)
  · by_cases hi' : i = PDX a
    · subst hi'
      rw [PagedSpace.addTable_table_self]
      exact entry_newTable_dir hcr
    · rw [PagedSpace.addTable_table_of_ne hi']
      exact (hdir i hi').trans (h.tables i hi)
  -- the new page table is empty, and so are its pages
  · by_cases hi' : i = PDX a
    · subst hi'
      obtain rfl := Option.some.inj (PagedSpace.addTable_table_self.symm.trans hu)
      have hindex : (PDX a * NPTENTRIES + j) / NPTENTRIES = PDX a := by
        simp only [NPTENTRIES] at *
        omega
      have hempty : m.page (PDX a * NPTENTRIES + j) = none := h.unmapped _ (hindex.symm ▸ hnone)
      show (s.newTable s.cr3 a t rest).entry t j = userEntry (m.page (PDX a * NPTENTRIES + j))
      rw [hempty]
      exact entry_newTable_table
    · have hu' : m.table i = some u := (PagedSpace.addTable_table_of_ne hi').symm.trans hu
      have huse := h.table i u hu'
      have hut : u ≠ t := by
        rintro rfl
        rw [ht] at huse
        cases huse
      have hucr : u ≠ s.cr3 := by
        rintro rfl
        rw [h.root] at huse
        cases huse
      exact (entry_newTable_of_ne hut (Or.inl hucr)).trans (h.pages i hi u hu' j hj)
  · by_cases hi' : q / NPTENTRIES = PDX a
    · rw [hi']
      exact hnone
    · exact (PagedSpace.addTable_table_of_ne hi').symm.trans hq
  · have huse := h.others x hx hx'
    rw [hkeep x (by rw [huse]; simp), huse]
  · have hxt : x ≠ t := by
      rintro rfl
      exact hx' (PDX a) (Function.update_self ..)
    rw [Function.update_of_ne hxt] at hx
    have hxcr : x ≠ s.cr3 := by
      rintro rfl
      exact hx h.root
    have hram : (s.newTable s.cr3 a t rest).ram x = s.ram x :=
      (Function.update_of_ne hxt ..).trans (Function.update_of_ne hxcr ..)
    show (s.newTable s.cr3 a t rest).ram x y = _
    rw [hram]
    refine h.bytes x hx (fun i hno => hx' i ?_) y
    rw [Function.update_of_ne hxt, hno]
  · by_cases hxt : x = t
    · subst hxt
      rw [Function.update_self] at hx
      cases hx
    · rwa [Function.update_of_ne hxt] at hx

/-! ## One pass of `MmMapSegment` -/

/-- A page takes the place of another one. -/
theorem miInsertPage_replace (perm : Nat) (hpde : (s.pde a).Valid = true)
    (hpte : (s.pte a).Valid = true) (hne : (s.pte a).PageFrameNumber ≠ f) (halign : a % PGSIZE = 0) :
    miInsertPage s.cr3 a f perm s = .ok (.STATUS_SUCCESS, miIncReferencePFN f
      (((s.setPte a ⟨0⟩).dec (s.pte a).PageFrameNumber).setPte a (.make f perm))) := by
  have hno : ¬ ((s.pde a).Valid = false ∨ (s.pte a).Valid = false) := by
    rw [hpde, hpte]
    decide
  have hremove : miRemovePage s.cr3 a s = .ok ((s.setPte a ⟨0⟩).dec (s.pte a).PageFrameNumber) := by
    rw [miRemovePage, assert_of_true halign, kernel_ok_bind, if_neg (fun hno => hno.1 rfl),
      if_neg hno]
    simp only [miDecReferencePFN_eq, kernel_ok_bind]
    rfl
  rw [miInsertPage, if_neg (fun hno => hno.1 rfl), insertPageTable, if_pos hpde, kernel_ok_bind]
  simp only [insertFrame, if_neg hne, if_pos (MMPTE.long_ne_zero hpte), hremove, kernel_ok_bind]
  rfl

/-- **Without a page table** one is added first. -/
theorem miInsertPage_newTable (hpde : (s.pde a).Valid = false) (ha : IsUserAddress a)
    (hfree : s.PfnFreeList = t :: rest) (ht : t < 1048576) (hcr : s.cr3 ≠ t) {perm : Nat} :
    miInsertPage s.cr3 a f perm s = miInsertPage s.cr3 a f perm (s.newTable s.cr3 a t rest) := by
  have hpde' : ((s.newTable s.cr3 a t rest).pde a).Valid = true := by
    rw [pde_newTable hcr]
    exact (MMPTE.make_fields t userPerm).1
  have hthere : insertPageTable s.cr3 a (s.newTable s.cr3 a t rest)
      = .ok (.STATUS_SUCCESS, s.newTable s.cr3 a t rest) := if_pos hpde'
  unfold miInsertPage
  rw [if_neg (fun hno => hno.1 rfl), insertPageTable_new hpde ha hfree ht,
    if_neg (fun hno => hno.1 rfl), hthere]

/-- One pass of the loop of `MmMapSegment`. -/
theorem mapSegmentLoop_one {perm : Nat} (hlist : s.PfnFreeList = f :: rest)
    (hinsert : miInsertPage s.cr3 a f perm { s with PfnFreeList := rest }
      = .ok (.STATUS_SUCCESS, s')) : mapSegmentLoop s.cr3 perm 1 a s = .ok s' := by
  rw [mapSegmentLoop]
  simp only [mmAllocatePFN, hlist, hinsert, kernel_ok_bind]
  rfl

/-- **Where there is a page table, a page is linked.** -/
theorem Private.insertPage (h : Private s₀ s m use) (ha : IsUserAddress a) (halign : a % PGSIZE = 0)
    (ht : m.table (PDX a) = some t) (hfree : m.free = f :: rest) :
    ∃ s', miInsertPage s.cr3 a f userPerm { s with PfnFreeList := rest } = .ok (.STATUS_SUCCESS, s')
      ∧ Linked s a f t (m.page (a / PGSIZE)) rest s' := by
  have hf : use f = .free := h.free f (hfree ▸ List.mem_cons_self ..)
  have hzero := h.idle f (hfree ▸ List.mem_cons_self ..)
  have hpos := (h.bound f (by rw [hf]; simp)).1
  obtain ⟨hframe, hpte⟩ := h.pte ha ht
  have hpde : (s.pde a).Valid = true := by
    rw [h.pde ha, ht, userEntry_valid]
    rfl
  have hcr : s.cr3 ≠ (s.pde a).PageFrameNumber := by
    rw [hframe]
    rintro heq
    have huse := h.table _ t ht
    rw [← heq, h.root] at huse
    cases huse
  cases hp : m.page (a / PGSIZE) with
  | none =>
    rw [hp] at hpte
    refine ⟨_, miInsertPage_there (s := { s with PfnFreeList := rest }) hpde hpte (by omega), rfl, rfl,
      fun x j => ?_, fun x hx => ?_, fun x => ?_⟩
    · rw [← hframe]
      exact entry_setEntry ..
    · rw [← hframe] at hx
      exact Function.update_of_ne hx ..
    · show Function.update s.RefCount f (s.RefCount f + 1) x = _
      rw [hzero, Function.update_apply, if_neg (by simp : ¬ (none : Option Nat) = some x)]
  | some g =>
    rw [hp] at hpte
    have hg := userEntry_frame (h.page_bound hp)
    have hone := h.owned _ g hp
    have hgf : g ≠ f := by
      rintro rfl
      rw [hone] at hzero
      cases hzero
    have hvalid : (s.pte a).Valid = true := by
      rw [hpte, userEntry_valid]
      rfl
    have hrun := miInsertPage_replace (s := { s with PfnFreeList := rest }) (f := f) userPerm
      hpde hvalid (show (s.pte a).PageFrameNumber ≠ f by rw [hpte, hg]; exact hgf) halign
    have hold : State.pte { s with PfnFreeList := rest } a = userEntry (some g) := hpte
    rw [hold, hg] at hrun
    -- the page table is the same after the page has been removed
    have hpde' : ((State.setPte { s with PfnFreeList := rest } a ⟨0⟩).dec g).pde a = s.pde a :=
      pde_setPte (s := { s with PfnFreeList := rest }) ⟨0⟩ a hcr
    refine ⟨_, hrun, rfl, ?_, fun x j => ?_, fun x hx => ?_, fun x => ?_⟩
    · show (if (if s.RefCount g = 0 then ULONG_VALUES - 1 else s.RefCount g - 1) = 0 then g :: rest
        else rest) = _
      rw [hone]
      rfl
    · refine (entry_setEntry ..).trans ?_
      rw [hpde', hframe]
      by_cases hslot : x = t ∧ j = PTX a
      · rw [if_pos hslot, if_pos hslot]
      · rw [if_neg hslot, if_neg hslot, entry_dec]
        refine (entry_setEntry ..).trans ?_
        rw [if_neg (by rw [show State.pde { s with PfnFreeList := rest } a = s.pde a from rfl, hframe]; exact hslot)]
        rfl
    · rw [← hframe] at hx
      refine (Function.update_of_ne (hpde'.symm ▸ hx) ..).trans ?_
      exact Function.update_of_ne hx ..
    · show Function.update (Function.update s.RefCount g
        (if s.RefCount g = 0 then ULONG_VALUES - 1 else s.RefCount g - 1)) f
          (Function.update s.RefCount g _ f + 1) x = _
      rw [Function.update_of_ne (Ne.symm hgf), hone, hzero, Function.update_apply,
        Function.update_apply]
      by_cases hxg : x = g
      · simp [hxg]
      · simp [hxg, Ne.symm hxg]

/-- **One pass of `MmMapSegment`** maps a page, and it fails when no page can be mapped. -/
theorem Private.mapPage (h : Private s₀ s m use) (ha : IsUserAddress a) (halign : a % PGSIZE = 0) :
    (∃ m' use' s', m.mapPage NPTENTRIES (a / PGSIZE) = some m'
        ∧ mapSegmentLoop s.cr3 userPerm 1 a s = .ok s' ∧ Private s₀ s' m' use')
      ∨ m.mapPage NPTENTRIES (a / PGSIZE) = none
        ∧ ∀ s', mapSegmentLoop s.cr3 userPerm 1 a s ≠ .ok s' := by
  have hindex := (user_indices ha).1
  cases hfree : m.free with
  | nil =>
    refine Or.inr ⟨?_, fun s' hrun => ?_⟩
    · rw [PagedSpace.mapPage, hfree]
      cases m.table (a / PGSIZE / NPTENTRIES) <;> rfl
    · rw [mapSegmentLoop] at hrun
      simp only [mmAllocatePFN, h.list, hfree] at hrun
      cases hrun
  | cons f rest =>
    cases ht : m.table (PDX a) with
    | some t =>
      obtain ⟨s', hinsert, hlinked⟩ := h.insertPage ha halign ht hfree
      refine Or.inl ⟨_, _, s', PagedSpace.mapPage_eq_some.mpr (Or.inl ⟨f, rest, hfree, ?_, rfl⟩),
        mapSegmentLoop_one (h.list.trans hfree) hinsert, h.link ha ht hfree hlinked⟩
      rw [← hindex, ht]
      simp
    | none =>
      have hpde : (s.pde a).Valid = false := by
        rw [h.pde ha, ht]
        exact MMPTE.zero_fields.1
      cases rest with
      | nil =>
        refine Or.inr ⟨?_, fun s' hrun => ?_⟩
        · rw [PagedSpace.mapPage, hfree, ← hindex, ht]
        · have hfull : miInsertPage s.cr3 a f userPerm { s with PfnFreeList := [] } = _ :=
            miInsertPage_full (s := { s with PfnFreeList := [] }) hpde ha rfl
          rw [mapSegmentLoop] at hrun
          simp only [mmAllocatePFN, h.list, hfree] at hrun
          rw [hfull] at hrun
          cases hrun
      | cons t rest =>
        have htable := h.addTable ha ht hfree
        obtain ⟨s', hinsert, hlinked⟩ := htable.insertPage ha halign
          PagedSpace.addTable_table_self rfl
        refine Or.inl ⟨_, _, s', PagedSpace.mapPage_eq_some.mpr (Or.inr ⟨f, t, rest, hfree, ?_, rfl⟩),
          mapSegmentLoop_one (h.list.trans hfree) ?_,
          hindex ▸ htable.link ha PagedSpace.addTable_table_self rfl hlinked⟩
        · rw [← hindex, ht]
        · have hu := (h.bound t (by rw [h.free t (by simp [hfree])]; simp)).2
          have hcr : s.cr3 ≠ t := by
            intro heq
            have huse := h.free t (by simp [hfree])
            rw [← heq, h.root] at huse
            cases huse
          exact (miInsertPage_newTable (s := { s with PfnFreeList := t :: rest }) hpde ha rfl hu
            hcr).trans hinsert

/-! ## A process to which nothing has been mapped -/

/-- **Nothing is mapped in the user half** of the loaded address space. -/
structure Unmapped (s : State) : Prop where
  nodup : s.PfnFreeList.Nodup
  idle : ∀ f ∈ s.PfnFreeList, s.RefCount f = 0
  bound : ∀ f, f ∈ s.PfnFreeList ∨ f = s.cr3 → 0 < f ∧ f < 1048576
  root : s.cr3 ∉ s.PfnFreeList
  empty : ∀ i < userEntries, s.entry s.cr3 i = ⟨0⟩

/-- The uses of the frames before anything is mapped. -/
def startUse (s : State) (f : Nat) : FrameUse :=
  if f ∈ s.PfnFreeList then .free else if f = s.cr3 then .root else .other

/-- The contents of the free frames do not matter. -/
theorem Unmapped.congr (h : Unmapped s) {ram : PhysicalMemory.Ram}
    (hram : ∀ f, f ∉ s.PfnFreeList → ram f = s.ram f) : Unmapped { s with ram } where
  nodup := h.nodup
  idle := h.idle
  bound := h.bound
  root := h.root
  empty i hi := by
    refine Eq.trans ?_ (h.empty i hi)
    exact congrArg MMPTE.mk (PhysicalMemory.word_congr (hram _ h.root) i)

/-- **Then the address space is an empty space of pages.** -/
theorem Unmapped.private (h : Unmapped s) :
    Private s s (.empty s.PfnFreeList) (startUse s) where
  nodup := h.nodup
  free f hf := if_pos hf
  table i t ht := by cases ht
  page p f hf := by cases hf
  list := rfl
  cr3 := rfl
  root := by rw [startUse, if_neg h.root, if_pos rfl]
  bound f hf := by
    refine h.bound f ?_
    by_contra hno
    obtain ⟨hfree, hcr⟩ := not_or.mp hno
    exact hf (by rw [startUse, if_neg hfree, if_neg hcr])
  idle := h.idle
  owned p f hf := by cases hf
  tables i hi := h.empty i hi
  pages i hi t ht := by cases ht
  unmapped p _ := rfl
  half i hi := rfl
  others f hf hf' := by rw [startUse, if_neg hf, if_neg hf']
  bytes f hf hf' x := rfl
  unstored f hf x := rfl

/-- **A new address space** in the ledger. -/
theorem Ledger.unmapped {L : Layout} {dirs tables : Finset Nat} {held : Nat → Nat} {out : Finset Nat}
    (h : Ledger L dirs tables held out s) (hcr : s.cr3 ∈ dirs)
    (hempty : ∀ i < userEntries, s.entry s.cr3 i = ⟨0⟩) : Unmapped s where
  nodup := h.nodup
  idle f hf := (h.free f hf).2.1
  bound f hf := by
    refine L.bound f ?_
    rcases hf with hf | rfl
    · exact (h.free f hf).1
    · exact h.shape.dirs_managed _ hcr
  root hin := (h.fresh hin).notDir hcr
  empty := hempty

end KaushOS.Paging
