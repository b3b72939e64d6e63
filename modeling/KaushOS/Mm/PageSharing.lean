import KaushOS.Mm.PageAside

/-! # Sharing an address space

`MmCloneProcessAddressSpace` shares the pages of a process with a new one: one page, the pages of one
page table, and all page tables.

* **`MMPTE.shared`** — a page after it has been shared.
* **`Ledger.sharePage`, `Ledger.sharePagesLoop`** — the pages of one page table.
* **`Ledger.cloneTable`** — one page table, with the window in which the new one is filled. -/

namespace KaushOS.Paging

variable {L : Layout} {dirs tables : Finset Nat} {held : Nat → Nat} {out : Finset Nat}
  {s s' : State} {a c d e f i j k n t v x : Nat} {p : MMPTE} {m : Nat → Nat → Nat → Option MMPTE}

/-! ## One page -/

/-- **A page after it has been shared**: what was writable is copied on a write from now on. -/
def MMPTE.shared (p : MMPTE) : MMPTE :=
  if p.CopyOnWrite then p
  else if p.Writable then (p.setWritable false).setCopyOnWrite true
  else p

/-- **Sharing keeps the frame and the rights**, except for writing. -/
theorem MMPTE.shared_fields (p : MMPTE) (hcow : p.CopyOnWrite = true → p.Writable = false) :
    p.shared.Valid = p.Valid ∧ p.shared.Writable = false ∧ p.shared.UserPriv = p.UserPriv
      ∧ p.shared.PageFrameNumber = p.PageFrameNumber := by
  unfold MMPTE.shared
  split
  · rename_i hc
    exact ⟨rfl, hcow hc, rfl, rfl⟩
  · split
    · obtain ⟨hvalid, hwritable, huser, -, hframe⟩ := p.share_fields
      exact ⟨hvalid, hwritable, huser, hframe⟩
    · rename_i hw
      exact ⟨rfl, Bool.not_eq_true _ ▸ hw, rfl, rfl⟩

/-- A page of one page table may be in another one. -/
theorem Layout.Page.move (h : L.Page dirs tables x p) (hx : x ∈ tables) (ht : t ∈ tables) :
    L.Page dirs tables t p :=
  ⟨h.valid, h.managed, h.copyOnWrite, fun hu => ⟨ht, (h.user hu).2⟩, fun _ => h.notDir hx⟩

/-- A page with a reference of its own is stored. -/
theorem Ledger.storeShared (h : Ledger L dirs tables held out s) (hx : x ∈ tables)
    (hj : j < NPTENTRIES) (hpage : L.Page dirs tables x (s.entry x j))
    (hw : (s.entry x j).Writable = false) (ht : t ∈ tables) (hempty : (s.entry t j).target = none) :
    Ledger L dirs tables held out
      ((miIncReferencePFN (s.entry x j).PageFrameNumber s).setEntry t j (s.entry x j)) := by
  have htarget : (s.entry x j).target = some (s.entry x j).PageFrameNumber :=
    target_of_valid hpage.valid
  obtain ⟨hmem, -, hused⟩ := h.page_managed (Or.inl hx) hj htarget
  have hnotFree : (s.entry x j).PageFrameNumber ∉ s.PfnFreeList := fun hin =>
    hused (h.free _ hin).2.1
  have hnotOut : (s.entry x j).PageFrameNumber ∉ out := fun hin => hused (h.unused _ hin)
  have hinc := h.inc hnotFree (h.readonly (Or.inl hx) hj htarget hw) (fun _ => rfl)
  rw [Finset.erase_eq_of_notMem hnotOut] at hinc
  refine hinc.storePage (Or.inl ht) hj (Or.inr (hpage.move hx ht))
    (fun _ _ hwritable => by rw [hw] at hwritable; cases hwritable) fun g => ?_
  have hiff : (if some (s.entry x j).PageFrameNumber = some g then 1 else 0)
      = if g = (s.entry x j).PageFrameNumber then 1 else 0 :=
    if_congr (by rw [Option.some.injEq, eq_comm]) rfl rfl
  have hold : ((miIncReferencePFN (s.entry x j).PageFrameNumber s).entry t j).target = none := hempty
  rw [hold, htarget, hiff, if_neg (show ¬ none = some g from fun heq => by cases heq)]
  rfl

/-- **The state in which a page is shared**: the page table `t` of the new process `e` is mapped in the
window of the loaded one. -/
structure Cloning (dirs : Finset Nat) (s : State) (e i k t : Nat) : Prop where
  cr3 : s.cr3 ∈ dirs
  new : e ∈ dirs
  ne : e ≠ s.cr3
  index : i < userEntries
  slot : k < NPTENTRIES
  source : (s.entry s.cr3 i).Valid = true
  target : (s.entry e i).target = some t
  window : ∃ w, leaf s.entry s.cr3 windowEntry k = some w ∧ w.PageFrameNumber = t

/-- The window as the processor sees it. -/
theorem Cloning.pte_window (h : Cloning dirs s e i k t) :
    (s.pte (pageAt windowEntry k)).PageFrameNumber = t := by
  obtain ⟨w, hleaf, hframe⟩ := h.window
  obtain ⟨-, hpdx, hptx⟩ := pageAt_window h.slot
  rw [← hpdx, ← hptx, hptx] at hleaf
  have hleaf' : leaf s.entry s.cr3 (PDX (pageAt windowEntry k)) (PTX (pageAt windowEntry k))
      = some w := by rw [hptx]; exact hleaf
  rw [(pte_of_leaf hleaf').2.1, hframe]

/-- **What has changed when a page has been shared**, or is not there. -/
structure PageShared (L : Layout) (dirs tables : Finset Nat) (e i j : Nat) (s s' : State) : Prop where
  cr3 : s'.cr3 = s.cr3
  pde : ∀ d ∈ dirs, ∀ i < userEntries, s'.entry d i = s.entry d i
  leaf : ∀ d ∈ dirs, ∀ i' < userEntries, ∀ j' < NPTENTRIES, leaf s'.entry d i' j'
    = setLeaf (setLeaf (leaf s.entry) s.cr3 i j ((leaf s.entry s.cr3 i j).map MMPTE.shared)) e i j
      ((leaf s.entry s.cr3 i j).map MMPTE.shared) d i' j'
  ram : ∀ f, f ∉ dirs → f ∉ tables → f ∉ L.kernel → s'.ram f = s.ram f
  free : s'.PfnFreeList = s.PfnFreeList

/-- The state in which a page is shared is the same afterwards. -/
theorem Cloning.shared (h : Cloning dirs s e i k t) (hs : PageShared L dirs tables e i j s s')
    (hj : j < NPTENTRIES) (hcow : ∀ p, leaf s.entry s.cr3 i j = some p → p.CopyOnWrite = true →
      p.Writable = false) : Cloning dirs s' e i k t := by
  have hwindow : windowEntry < userEntries := by decide
  refine ⟨hs.cr3 ▸ h.cr3, h.new, hs.cr3 ▸ h.ne, h.index, h.slot, ?_, ?_, ?_⟩
  · rw [hs.cr3, hs.pde _ h.cr3 _ h.index]
    exact h.source
  · rw [hs.pde _ h.new _ h.index]
    exact h.target
  · obtain ⟨w, hleaf, hframe⟩ := h.window
    rw [hs.cr3, hs.leaf _ h.cr3 _ hwindow _ h.slot, setLeaf_of_ne fun hno => h.ne hno.1.symm]
    by_cases hslot : windowEntry = i ∧ k = j
    · obtain ⟨rfl, rfl⟩ := hslot
      rw [setLeaf_self, hleaf]
      exact ⟨w.shared, rfl, (w.shared_fields (hcow w hleaf)).2.2.2.trans hframe⟩
    · rw [setLeaf_of_ne fun hno => hslot hno.2]
      exact ⟨w, hleaf, hframe⟩

/-- The page of the source, with its new permissions. -/
theorem sharePage_ok {b : Nat} (hne : s.cr3 ≠ (s.pde a).PageFrameNumber)
    (hrun : sharePage b a s = .ok s') : ((s.pte a).Valid = false ∧ s' = s)
      ∨ (s.pte a).Valid = true ∧ ∃ s₁, s' = (miIncReferencePFN (s.pte a).PageFrameNumber s₁).storeThrough b
          (PTX a) (s.pte a).shared
        ∧ ((s₁ = s ∧ (s.pte a).shared = s.pte a ∧ (s.pte a).Writable = false)
          ∨ s₁ = s.setPte a (s.pte a).shared ∧ (s.pte a).CopyOnWrite = false) := by
  unfold sharePage at hrun
  dsimp only at hrun
  split at hrun
  · rename_i hpte
    refine Or.inr ⟨hpte, ?_⟩
    split at hrun
    · rename_i hcow
      obtain ⟨_, hassert, hrun⟩ := kernel_bind_eq_ok.mp hrun
      cases hrun
      have hsame : (s.pte a).shared = s.pte a := if_pos hcow
      exact ⟨s, by rw [hsame], Or.inl ⟨rfl, hsame, assert_eq_ok.mp hassert⟩⟩
    · rename_i hcow
      split at hrun
      · rename_i hw
        have hshared : (s.pte a).shared = ((s.pte a).setWritable false).setCopyOnWrite true := by
          rw [MMPTE.shared, if_neg hcow, if_pos hw]
        refine ⟨s.setPte a (s.pte a).shared, ?_, Or.inr ⟨rfl, Bool.not_eq_true _ ▸ hcow⟩⟩
        rw [← hshared] at hrun
        have hpage : ((miIncReferencePFN (s.pte a).PageFrameNumber s).setPte a
            (s.pte a).shared).pte a = (s.pte a).shared := pte_setPte _ hne
        rw [hpage] at hrun
        exact (Except.ok.inj hrun).symm
      · rename_i hw
        have hsame : (s.pte a).shared = s.pte a := by
          rw [MMPTE.shared, if_neg hcow, if_neg hw]
        exact ⟨s, by rw [hsame]; exact (Except.ok.inj hrun).symm,
          Or.inl ⟨rfl, hsame, Bool.not_eq_true _ ▸ hw⟩⟩
  · rename_i hpte
    exact Or.inl ⟨Bool.not_eq_true _ ▸ hpte, (Except.ok.inj hrun).symm⟩

/-- The pages of a page table in the user half. -/
theorem pageAt_user (hi : i < userEntries) (hj : j < NPTENTRIES) : IsUserAddress (pageAt i j)
    ∧ PDX (pageAt i j) = i ∧ PTX (pageAt i j) = j := by
  have hentries : userEntries = 511 := by decide
  refine ⟨?_, PDX_pageAt (Nat.lt_trans hi (by decide)) hj, PTX_pageAt hj⟩
  simp only [IsUserAddress, pageAt, hentries, PTSIZE, PGSIZE, USERTOP, NPTENTRIES] at *
  omega

/-- **A page is shared.** -/
theorem Ledger.sharePage (h : Ledger L dirs tables held out s) (hc : Cloning dirs s e i k t)
    (hj : j < NPTENTRIES) (hempty : leaf s.entry e i j = none)
    (hrun : sharePage (pageAt windowEntry k) (pageAt i j) s = .ok s') :
    Ledger L dirs tables held out s' ∧ PageShared L dirs tables e i j s s' := by
  obtain ⟨huser, hpdx, hptx⟩ := pageAt_user hc.index hj
  have hmap : Mappable L dirs s (pageAt i j) := Or.inl ⟨huser, hc.cr3⟩
  have hpde : (s.pde (pageAt i j)).Valid = true := by
    rw [State.pde, hpdx]
    exact hc.source
  have hne := h.shape.slot_ne hmap hpde
  have hx : (s.pde (pageAt i j)).PageFrameNumber ∈ tables :=
    h.shape.target_mem hc.cr3 (PDX_user huser) (target_of_valid hpde)
  have ht : t ∈ tables := h.shape.target_mem hc.new hc.index hc.target
  rcases sharePage_ok hne hrun with ⟨hpte, rfl⟩ | ⟨hpte, s₁, hs', hs₁⟩
  · have hnone := leaf_of_pte hpte
    rw [hpdx, hptx] at hnone
    refine ⟨h, rfl, fun _ _ _ _ => rfl, fun d _ i' _ j' _ => ?_, fun _ _ _ _ => rfl, rfl⟩
    rw [hnone, Option.map_none, setLeaf_same hnone, setLeaf_same hempty]
  · have hleaf : leaf s.entry s.cr3 i j = some (s.pte (pageAt i j)) := by
      have hleaf := leaf_of_pte_valid hpde hpte
      rwa [hpdx, hptx] at hleaf
    have hpage : L.Page dirs tables (s.pde (pageAt i j)).PageFrameNumber (s.pte (pageAt i j)) := by
      refine (h.shape.pte_cases hmap hpde).resolve_left fun hzero => ?_
      rw [hzero] at hpte
      cases hpte
    have hdir := h.noDirectory huser hc.cr3 hpde hpte
    obtain ⟨hvalid, hwritable, huserPriv, hframe⟩ :=
      (s.pte (pageAt i j)).shared_fields hpage.copyOnWrite
    generalize hp : s.pte (pageAt i j) = p at *
    -- the page of the source becomes read-only
    have hsource : Ledger L dirs tables held out s₁ ∧
        Remapped L dirs tables tables (pageAt i j) (some p.shared) s s₁ := by
      rcases hs₁ with ⟨rfl, hsame, -⟩ | ⟨rfl, -⟩
      · refine ⟨h, .refl ?_⟩
        rw [hpdx, hptx, hleaf, hsame]
      · exact h.adjust hmap hpde (hp ▸ hpte) (hp ▸ hdir) (hp ▸ hvalid) (hp ▸ huserPriv)
          (hp ▸ hframe) (fun _ => hwritable) (fun _ hw => by rw [hwritable] at hw; cases hw)
    obtain ⟨hledger, hchange⟩ := hsource
    have hleaf₁ : ∀ d ∈ dirs, ∀ i' < userEntries, ∀ j' < NPTENTRIES, leaf s₁.entry d i' j'
        = setLeaf (leaf s.entry) s.cr3 i j (some p.shared) d i' j' := by
      intro d hd i' hi' j' hj'
      rw [hchange.leaf d hd i' hi' j' hj', hpdx, hptx]
    have hpde₁ : ∀ d ∈ dirs, ∀ i' < userEntries, s₁.entry d i' = s.entry d i' := by
      intro d hd i' hi'
      refine hchange.pde d hd i' hi' ?_
      by_cases hslot : d = s.cr3 ∧ i' = i
      · obtain ⟨rfl, rfl⟩ := hslot
        exact Or.inl hc.source
      · rw [hpdx]
        exact Or.inr (not_and_or.mp hslot)
    -- the page table of the new process
    have ht₁ : (s₁.entry e i).target = some t := by
      rw [hpde₁ e hc.new i hc.index]
      exact hc.target
    have hempty₁ : (s₁.entry t j).target = none := by
      have hnone := hleaf₁ e hc.new i hc.index j hj
      rw [setLeaf_of_ne fun hno => hc.ne hno.1, hempty, leaf_of_table ht₁] at hnone
      split at hnone
      · cases hnone
      · rename_i hno
        exact if_neg hno
    have hwindow : (s₁.pte (pageAt windowEntry k)).PageFrameNumber = t := by
      obtain ⟨w, hw, hwframe⟩ := hc.window
      obtain ⟨-, hvpdx, hvptx⟩ := pageAt_window hc.slot
      have hv := hleaf₁ _ hc.cr3 windowEntry (by decide) k hc.slot
      rw [← hchange.cr3] at hv
      by_cases hslot : windowEntry = i ∧ k = j
      · obtain ⟨rfl, rfl⟩ := hslot
        rw [hchange.cr3, setLeaf_self, ← hchange.cr3] at hv
        rw [hw] at hleaf
        cases hleaf
        have hv' := pte_of_leaf (a := pageAt windowEntry k) (by rw [hvpdx, hvptx]; exact hv)
        rw [hv'.2.1, hframe, hwframe]
      · rw [hchange.cr3, setLeaf_of_ne fun hno => hslot hno.2, hw, ← hchange.cr3] at hv
        have hv' := pte_of_leaf (a := pageAt windowEntry k) (by rw [hvpdx, hvptx]; exact hv)
        rw [hv'.2.1, hwframe]
    -- the page of the source, found again
    have hentry : s₁.entry (s.pde (pageAt i j)).PageFrameNumber j = p.shared := by
      have hself := hleaf₁ _ hc.cr3 i hc.index j hj
      rw [setLeaf_self, ← hchange.cr3] at hself
      have hpte₁ := (pte_of_leaf (a := pageAt i j) (by rw [hpdx, hptx]; exact hself)).2.1
      rw [State.pte, State.pde, hpdx, hptx, hchange.cr3, hpde₁ _ hc.cr3 i hc.index] at hpte₁
      rw [State.pde, hpdx]
      exact hpte₁
    have hpage₁ : L.Page dirs tables (s.pde (pageAt i j)).PageFrameNumber p.shared :=
      hpage.adjust hvalid huserPriv hframe fun _ => hwritable
    have hstored := hledger.storeShared hx hj (hentry ▸ hpage₁) (by rw [hentry, hwritable]) ht hempty₁
    rw [hentry, hframe] at hstored
    have hstate : s' = (miIncReferencePFN p.PageFrameNumber s₁).setEntry t j p.shared := by
      rw [hs', State.storeThrough, hptx]
      exact congrArg (fun f => State.setEntry _ f j p.shared) hwindow
    have hentries : s'.entry = storeEntry s₁.entry t j p.shared := by
      rw [hstate]
      exact entries_setEntry _ t j p.shared
    rw [← hstate] at hstored
    refine ⟨hstored, ?_, fun d hd i' hi' => ?_, fun d hd i' hi' j' hj' => ?_, fun f hd hf hk => ?_,
      ?_⟩
    · rw [hstate]
      exact hchange.cr3
    · have hdt : d ≠ t := by
        rintro rfl
        exact h.shape.apart _ hd ht
      rw [hentries, storeEntry_of_ne (Or.inl hdt), hpde₁ d hd i' hi']
    · rw [hentries, leaf_storePage hledger.shape.toDirectories hc.new hc.index ht₁ hd hi', hleaf,
        Option.map_some, if_pos (hvalid.trans (hp ▸ hpte))]
      by_cases hslot : d = e ∧ i' = i ∧ j' = j
      · obtain ⟨rfl, rfl, rfl⟩ := hslot
        rw [setLeaf_self, setLeaf_self]
      · rw [setLeaf_of_ne hslot, setLeaf_of_ne hslot, hleaf₁ d hd i' hi' j' hj']
    · have hft : f ≠ t := by
        rintro rfl
        exact hf ht
      rw [hstate]
      exact (Function.update_of_ne hft ..).trans (hchange.ram f hd hf hk)
    · rw [hstate]
      rcases hs₁ with ⟨rfl, -⟩ | ⟨rfl, -⟩ <;> rfl

/-! ## One page table -/

/-- What all address spaces map after the pages from `j` on of one page table have been shared. -/
def sharedFrom (m : Nat → Nat → Nat → Option MMPTE) (c e i j d i' j' : Nat) : Option MMPTE :=
  if (d = c ∨ d = e) ∧ i' = i ∧ j ≤ j' then (m c i j').map MMPTE.shared else m d i' j'

/-- **What has changed when the pages from `j` on have been shared.** -/
structure TableShared (L : Layout) (dirs tables : Finset Nat) (e i j : Nat) (s s' : State) : Prop where
  cr3 : s'.cr3 = s.cr3
  pde : ∀ d ∈ dirs, ∀ i < userEntries, s'.entry d i = s.entry d i
  leaf : ∀ d ∈ dirs, ∀ i' < userEntries, ∀ j' < NPTENTRIES, leaf s'.entry d i' j'
    = sharedFrom (leaf s.entry) s.cr3 e i j d i' j'
  ram : ∀ f, f ∉ dirs → f ∉ tables → f ∉ L.kernel → s'.ram f = s.ram f
  free : s'.PfnFreeList = s.PfnFreeList

/-- One page and the pages after it. -/
theorem sharedFrom_succ (hne : e ≠ c) (d i' j' : Nat) :
    sharedFrom (setLeaf (setLeaf m c i j ((m c i j).map MMPTE.shared)) e i j
      ((m c i j).map MMPTE.shared)) c e i (j + 1) d i' j' = sharedFrom m c e i j d i' j' := by
  by_cases hrow : (d = c ∨ d = e) ∧ i' = i
  · obtain ⟨hd, rfl⟩ := hrow
    rcases Nat.lt_trichotomy j' j with hlt | rfl | hgt
    · have hj : ¬ (d = e ∧ i' = i' ∧ j' = j) := fun hno => by omega
      have hj' : ¬ (d = c ∧ i' = i' ∧ j' = j) := fun hno => by omega
      rw [sharedFrom, sharedFrom, if_neg (fun hno => by omega), if_neg (fun hno => by omega),
        setLeaf_of_ne hj, setLeaf_of_ne hj']
    · rw [sharedFrom, sharedFrom, if_neg (fun hno => by omega), if_pos ⟨hd, rfl, Nat.le_refl _⟩]
      rcases hd with rfl | rfl
      · rw [setLeaf_of_ne fun hno => hne hno.1.symm, setLeaf_self]
      · rw [setLeaf_self]
    · rw [sharedFrom, sharedFrom, if_pos ⟨hd, rfl, hgt⟩, if_pos ⟨hd, rfl, Nat.le_of_lt hgt⟩,
        setLeaf_of_ne fun hno => hne hno.1.symm, setLeaf_of_ne fun hno => by omega]
  · have hno : ∀ b, ¬ ((d = c ∨ d = e) ∧ i' = i ∧ b ≤ j') := fun b hb => hrow ⟨hb.1, hb.2.1⟩
    rw [sharedFrom, sharedFrom, if_neg (hno _), if_neg (hno _),
      setLeaf_of_ne fun hb => hrow ⟨Or.inr hb.1, hb.2.1⟩,
      setLeaf_of_ne fun hb => hrow ⟨Or.inl hb.1, hb.2.1⟩]

/-- **The inner loop of `MmCloneProcessAddressSpace`.** -/
theorem Ledger.sharePagesLoop (h : Ledger L dirs tables held out s) (hc : Cloning dirs s e i k t)
    (hj : j + n = NPTENTRIES) (hempty : ∀ j', j ≤ j' → j' < NPTENTRIES → leaf s.entry e i j' = none)
    (hrun : sharePagesLoop (pageAt windowEntry k) n (pageAt i j) s = .ok s') :
    Ledger L dirs tables held out s' ∧ Cloning dirs s' e i k t
      ∧ TableShared L dirs tables e i j s s' := by
  induction n generalizing j s with
  | zero =>
    cases hrun
    refine ⟨h, hc, rfl, fun _ _ _ _ => rfl, fun d _ i' _ j' hj' => ?_, fun _ _ _ _ => rfl, rfl⟩
    rw [sharedFrom, if_neg fun hno => by omega]
  | succ n ih =>
    obtain ⟨s₁, hshare, hrest⟩ := kernel_bind_eq_ok.mp hrun
    have hlt : j < NPTENTRIES := by omega
    obtain ⟨hledger, hchange⟩ := h.sharePage hc hlt (hempty j (Nat.le_refl j) hlt) hshare
    have hcloning := hc.shared hchange hlt fun p hp => by
      obtain ⟨u, -, hpage⟩ := h.shape.leaf_page hc.cr3 hc.index hlt hp
      exact hpage.copyOnWrite
    have hempty₁ : ∀ j', j + 1 ≤ j' → j' < NPTENTRIES → leaf s₁.entry e i j' = none := by
      intro j' hlo hhi
      rw [hchange.leaf e hc.new i hc.index j' hhi, setLeaf_of_ne fun hno => by omega,
        setLeaf_of_ne fun hno => by omega]
      exact hempty j' (by omega) hhi
    rw [pageAt_succ] at hrest
    obtain ⟨hledger₂, hcloning₂, hchange₂⟩ := ih hledger hcloning (by omega) hempty₁ hrest
    refine ⟨hledger₂, hcloning₂, hchange₂.cr3.trans hchange.cr3, fun d hd i' hi' => ?_,
      fun d hd i' hi' j' hj' => ?_, fun f hd hf hk => ?_, hchange₂.free.trans hchange.free⟩
    · rw [hchange₂.pde d hd i' hi', hchange.pde d hd i' hi']
    · rw [← sharedFrom_succ hc.ne, hchange₂.leaf d hd i' hi' j' hj', hchange.cr3]
      unfold sharedFrom
      rw [hchange.leaf _ hc.cr3 i hc.index j' hj', hchange.leaf d hd i' hi' j' hj']
    · rw [hchange₂.ram f hd hf hk, hchange.ram f hd hf hk]

/-- **What has changed when a page table has been copied**: its pages are shared by the loaded directory
and the new one. One page of the window, which was free, is mapped meanwhile; what is shared while the
page table of the window itself is copied is also that page. -/
structure TableCloned (L : Layout) (dirs tables tables' : Finset Nat) (e i k t : Nat) (s s' : State) :
    Prop where
  cr3 : s'.cr3 = s.cr3
  grows : tables ⊆ tables'
  slot : k < NPTENTRIES
  free : leaf s.entry s.cr3 windowEntry k = none
  pde : ∀ d ∈ dirs, ∀ i' < userEntries, d ≠ s.cr3 ∨ i' ≠ windowEntry → d ≠ e ∨ i' ≠ i →
    s'.entry d i' = s.entry d i'
  window : (s'.entry s.cr3 windowEntry).Valid = true
  kept : ∀ d ∈ dirs, d ≠ e → ∀ i' < userEntries, ∀ j < NPTENTRIES, leaf s'.entry d i' j
    = if d = s.cr3 ∧ i' = i then (leaf s.entry d i' j).map MMPTE.shared else leaf s.entry d i' j
  done : ∀ i' < userEntries, i' ≠ i → ∀ j < NPTENTRIES, leaf s'.entry e i' j = leaf s.entry e i' j
  copied : ∀ j < NPTENTRIES, leaf s'.entry e i j
    = if i = windowEntry ∧ j = k then some (MMPTE.make t PTE_W).shared
      else (leaf s.entry s.cr3 i j).map MMPTE.shared
  ram : ∀ f, f ∉ dirs → f ∉ tables' → f ∉ L.kernel → s'.ram f = s.ram f

/-- **A page table is put into the new directory** before it is cleared. -/
def State.linkTable (s : State) (e i t : Nat) (rest : List Nat) : State :=
  (miIncReferencePFN t { s with PfnFreeList := rest }).setEntry e i (.make t userPerm)

/-- The loaded address space while another directory gets a page table. -/
theorem pde_linkTable {rest : List Nat} (hne : e ≠ s.cr3) (a : Nat) :
    (s.linkTable e i t rest).pde a = s.pde a := entry_setEntry_of_ne (Or.inl hne.symm)

/-- The pages of the loaded address space while another directory gets a page table. -/
theorem Directories.pte_linkTable {rest : List Nat} (h : Directories L dirs tables s.entry)
    (hcr : s.cr3 ∈ dirs) (he : e ∈ dirs) (hne : e ≠ s.cr3) (ha : IsUserAddress a)
    (hpde : (s.pde a).Valid = true) : (s.linkTable e i t rest).pte a = s.pte a := by
  have hmem := h.target_mem hcr (PDX_user ha) (target_of_valid hpde)
  rw [State.pte, pde_linkTable hne]
  refine entry_setEntry_of_ne (Or.inl fun heq => ?_)
  exact h.apart e he (heq ▸ hmem)

/-- **A page table that has been linked is aside.** -/
theorem Ledger.aside {rest : List Nat} (h : Ledger L dirs tables held out s) (hcr : s.cr3 ∈ dirs)
    (he : e ∈ dirs) (hne : e ≠ s.cr3) (hfree : s.PfnFreeList = t :: rest) :
    Aside (s.linkTable e i t rest) t := by
  have hfresh := h.fresh (hfree ▸ List.mem_cons_self ..)
  have hnodup := List.nodup_cons.mp (hfree ▸ h.nodup)
  refine ⟨fun heq => hfresh.notDir (heq ▸ hcr), fun f hf => ?_, fun a ha hvalid => ?_,
    fun a ha hvalid hpte => ?_⟩
  · have hf' : f ∈ s.PfnFreeList := hfree ▸ List.mem_cons_of_mem t hf
    refine ⟨(L.bound f (h.free f hf').1).2, fun heq => hnodup.1 (heq ▸ hf), fun heq => ?_⟩
    exact (h.fresh hf').notDir (heq ▸ hcr)
  · rw [pde_linkTable hne] at hvalid ⊢
    have hmem := h.shape.target_mem hcr (PDX_user ha) (target_of_valid hvalid)
    exact fun heq => hfresh.notTable (heq ▸ hmem)
  · rw [pde_linkTable hne] at hvalid
    rw [h.shape.pte_linkTable hcr he hne ha hvalid] at hpte ⊢
    refine (h.shape.pte_cases (Or.inl ⟨ha, hcr⟩) hvalid).resolve_right fun hpage => ?_
    rw [hpage.valid] at hpte
    cases hpte

/-- **The page table is mapped in the window.** It is not cleared before it is mapped, which makes no
difference. -/
theorem Ledger.mapNewTable {s₁ : State} {rest : List Nat} {r : Option Nat}
    (h : Ledger L dirs tables held out s) (hcr : s.cr3 ∈ dirs) (he : e ∈ dirs) (hne : e ≠ s.cr3)
    (hi : i < userEntries) (hempty : s.entry e i = ⟨0⟩) (hfree : s.PfnFreeList = t :: rest)
    (hrun : Paging.mmMapPageTemp t (s.linkTable e i t rest) = .ok (r, s₁)) :
    WindowMapped L dirs (insert t tables) held out t (s.newTable e (pageAt i 0) t rest) r
      (s₁.clearFrame t) := by
  obtain ⟨huser, hpdx, -⟩ := pageAt_user hi (j := 0) (by decide)
  have hfresh := h.fresh (hfree ▸ List.mem_cons_self ..)
  have hnodup := List.nodup_cons.mp (hfree ▸ h.nodup)
  have hstate : s.newTable e (pageAt i 0) t rest = (s.linkTable e i t rest).clearFrame t := by
    rw [State.newTable, hpdx]
    rfl
  have hledger := h.newTable (a := pageAt i 0) he huser (hpdx.symm ▸ hempty) hfree
  have hshare : Shareable L dirs (insert t tables) (s.newTable e (pageAt i 0) t rest) t := by
    refine ⟨hfresh.managed, hnodup.1, hfresh.notDir, fun u hu j hj htarget huserPriv => ?_⟩
    obtain ⟨hvalid, hframe⟩ := target_eq_some.mp htarget
    have hpage := (hledger.shape.page u (Or.inl hu) j hj).resolve_left fun hzero => by
      rw [hzero] at hvalid
      cases hvalid
    have hno := (hpage.user huserPriv).2
    rw [hframe] at hno
    exact absurd (Finset.mem_insert_self t tables) hno
  have hclear := (h.aside hcr he hne hfree).mmMapPageTemp
    (Nat.ne_of_gt (L.bound t hfresh.managed).1) hrun
  rw [← hstate] at hclear
  exact hledger.mmMapPageTemp hcr hshare hclear

/-- **What has changed when the window is open**: the new page table is in its directory and in the
window, and it is empty. -/
structure WindowOpened (L : Layout) (dirs tables tables' : Finset Nat) (e i k t : Nat) (s s' : State) :
    Prop where
  cr3 : s'.cr3 = s.cr3
  grows : tables ⊆ tables'
  slot : k < NPTENTRIES
  free : leaf s.entry s.cr3 windowEntry k = none
  pde : ∀ d ∈ dirs, ∀ i' < userEntries,
    (s.entry d i').Valid = true ∨ d ≠ s.cr3 ∨ i' ≠ windowEntry → d ≠ e ∨ i' ≠ i →
    s'.entry d i' = s.entry d i'
  target : (s'.entry e i).target = some t
  leaf : ∀ d ∈ dirs, ∀ i' < userEntries, ∀ j < NPTENTRIES, leaf s'.entry d i' j
    = setLeaf (leaf s.entry) s.cr3 windowEntry k (some (.make t PTE_W)) d i' j
  ram : ∀ f, f ∉ dirs → f ∉ tables' → f ∉ L.kernel → s'.ram f = s.ram f

/-- **The window is opened.** -/
theorem Ledger.openWindow {s₁ : State} {rest : List Nat} {r : Option Nat}
    (h : Ledger L dirs tables held out s) (hcr : s.cr3 ∈ dirs) (he : e ∈ dirs) (hne : e ≠ s.cr3)
    (hi : i < userEntries) (hempty : s.entry e i = ⟨0⟩) (hfree : s.PfnFreeList = t :: rest)
    (hrun : Paging.mmMapPageTemp t (s.linkTable e i t rest) = .ok (r, s₁)) :
    r = none ∨ ∃ k tables', r = some (pageAt windowEntry k)
      ∧ Ledger L dirs tables' held out (s₁.clearFrame t)
      ∧ WindowOpened L dirs tables tables' e i k t s (s₁.clearFrame t) := by
  obtain ⟨-, hpdx, -⟩ := pageAt_user hi (j := 0) (by decide)
  have hin : t ∈ s.PfnFreeList := hfree ▸ List.mem_cons_self ..
  have hfresh := h.fresh hin
  obtain ⟨-, -, hnotOut⟩ := h.free t hin
  rcases h.mapNewTable hcr he hne hi hempty hfree hrun with
    ⟨rfl, -⟩ | ⟨k, hk, rfl, hslot, tables₂, hledger, hchange⟩
  · exact Or.inl rfl
  rw [Finset.erase_eq_of_notMem hnotOut] at hledger
  refine Or.inr ⟨k, tables₂, rfl, hledger, ?_⟩
  obtain ⟨-, hvpdx, hvptx⟩ := pageAt_window hk
  have hdt : ∀ d ∈ dirs, d ≠ t := by
    rintro d hd rfl
    exact hfresh.notDir hd
  have hempty' : s.entry e (PDX (pageAt i 0)) = ⟨0⟩ := by rw [hpdx, hempty]
  have hleaf : ∀ d ∈ dirs, ∀ i' < userEntries, ∀ j,
      leaf (s.newTable e (pageAt i 0) t rest).entry d i' j = leaf s.entry d i' j :=
    fun d hd i' hi' j => hfresh.leaf_newTable h.shape.toDirectories he hempty' hd hi' j
  have hpde : ∀ d ∈ dirs, ∀ i', d ≠ e ∨ i' ≠ i →
      (s.newTable e (pageAt i 0) t rest).entry d i' = s.entry d i' := by
    intro d hd i' hor
    refine entry_newTable_of_ne (hdt d hd) ?_
    rw [hpdx]
    exact hor
  refine ⟨hchange.cr3, (Finset.subset_insert t tables).trans hchange.grows, hk, ?_,
    fun d hd i' hi' hor hor' => ?_, ?_, fun d hd i' hi' j hj => ?_, fun f hd ht hkernel => ?_⟩
  · rw [← hleaf _ hcr _ (by decide)]
    exact hslot
  · rw [← hpde d hd i' hor'] at hor ⊢
    exact hchange.pde d hd i' hi' (hvpdx.symm ▸ hor)
  · have hnew : (s.newTable e (pageAt i 0) t rest).entry e _ = _ := entry_newTable_dir (hdt e he)
    rw [hpdx] at hnew
    rw [hchange.pde e he i hi (Or.inr (Or.inl hne)), hnew, target_make hfresh.managed (by decide)]
  · rw [hchange.leaf d hd i' hi' j hj, hvpdx, hvptx]
    by_cases hno : d = s.cr3 ∧ i' = windowEntry ∧ j = k
    · obtain ⟨rfl, rfl, rfl⟩ := hno
      exact setLeaf_self.trans setLeaf_self.symm
    · exact (setLeaf_of_ne hno).trans ((hleaf d hd i' hi' j).trans (setLeaf_of_ne hno).symm)
  · rw [hchange.ram f hd ht hkernel]
    refine ram_newTable ?_ ?_
    · rintro rfl
      exact ht (hchange.grows (Finset.mem_insert_self ..))
    · rintro rfl
      exact hd he

/-- **What is in the window** is the new page table, before it is cleared and afterwards. -/
theorem WindowOpened.frame {tables' : Finset Nat} {s₁ : State}
    (h : WindowOpened L dirs tables tables' e i k t s (s₁.clearFrame t))
    (hledger : Ledger L dirs tables' held out (s₁.clearFrame t)) (hcr : s.cr3 ∈ dirs) (he : e ∈ dirs)
    (hne : e ≠ s.cr3) (hi : i < userEntries) :
    (s₁.pte (pageAt windowEntry k)).PageFrameNumber = t := by
  obtain ⟨-, hvpdx, hvptx⟩ := pageAt_window h.slot
  have ht := hledger.shape.target_mem he hi h.target
  have hcr₁ : s₁.cr3 = s.cr3 := h.cr3
  have hct : s₁.cr3 ≠ t := fun heq => hledger.shape.apart _ hcr (hcr₁ ▸ heq ▸ ht)
  have hleaf : Paging.leaf (s₁.clearFrame t).entry (s₁.clearFrame t).cr3 (PDX (pageAt windowEntry k))
      (PTX (pageAt windowEntry k)) = some (.make t PTE_W) := by
    rw [hvpdx, hvptx, h.cr3, h.leaf _ hcr _ (by decide) _ h.slot, setLeaf_self]
  obtain ⟨hpde, hpte, -⟩ := pte_of_leaf hleaf
  have hother : (s₁.pde (pageAt windowEntry k)).PageFrameNumber ≠ t := by
    intro heq
    have howner : ((s₁.clearFrame t).entry s.cr3 windowEntry).target = some t := by
      have hclear := pde_clearFrame hct (pageAt windowEntry k)
      rw [hclear] at hpde
      rw [State.pde, hvpdx, h.cr3] at hclear
      rw [hclear]
      exact target_eq_some.mpr ⟨hpde, heq⟩
    exact hne (hledger.shape.unique e he i hi _ hcr windowEntry (by decide) t ht h.target howner).1
  rw [pte_clearFrame hct hother] at hpte
  rw [hpte]
  exact MMPTE.make_frame (L.bound t (hledger.shape.tables_managed t ht)).2 (by decide)

/-- **Everything is ready for the pages to be shared.** -/
theorem WindowOpened.cloning {tables' : Finset Nat} (h : WindowOpened L dirs tables tables' e i k t s s')
    (hledger : Ledger L dirs tables' held out s') (hcr : s.cr3 ∈ dirs) (he : e ∈ dirs)
    (hne : e ≠ s.cr3) (hi : i < userEntries) (hpde : (s.entry s.cr3 i).Valid = true) :
    Cloning dirs s' e i k t := by
  refine ⟨h.cr3 ▸ hcr, he, h.cr3 ▸ hne, hi, h.slot, ?_, h.target, ?_⟩
  · rw [h.cr3, h.pde _ hcr i hi (Or.inl hpde) (Or.inl hne.symm)]
    exact hpde
  · rw [h.cr3, h.leaf _ hcr _ (by decide) _ h.slot, setLeaf_self]
    have ht := hledger.shape.tables_managed t (hledger.shape.target_mem he hi h.target)
    exact ⟨_, rfl, MMPTE.make_frame (L.bound t ht).2 (by decide)⟩

/-- The new page table is empty. -/
theorem WindowOpened.empty {tables' : Finset Nat} (h : WindowOpened L dirs tables tables' e i k t s s')
    (he : e ∈ dirs) (hne : e ≠ s.cr3) (hi : i < userEntries) (hzero : s.entry e i = ⟨0⟩) (j : Nat)
    (_ : 0 ≤ j) (hj : j < NPTENTRIES) : Paging.leaf s'.entry e i j = none := by
  rw [h.leaf e he i hi j hj, setLeaf_of_ne fun hno => hne hno.1]
  exact leaf_of_none (by rw [hzero, target_zero])

/-- **The pages are shared, and the window is closed.** -/
theorem TableCloned.of_window {tables' : Finset Nat} {σ s₁ : State}
    (h : WindowOpened L dirs tables tables' e i k t s σ)
    (hshare : TableShared L dirs tables' e i 0 σ s₁)
    (hclose : Remapped L dirs tables' tables' (pageAt windowEntry k) none s₁ s')
    (hcr : s.cr3 ∈ dirs) (he : e ∈ dirs) (hne : e ≠ s.cr3) (hi : i < userEntries) :
    TableCloned L dirs tables tables' e i k t s s' := by
  obtain ⟨-, hvpdx, hvptx⟩ := pageAt_window h.slot
  have hcr₁ : s₁.cr3 = s.cr3 := hshare.cr3.trans h.cr3
  have hwindow : windowEntry < userEntries := by decide
  have hleaf : ∀ d ∈ dirs, ∀ i' < userEntries, ∀ j < NPTENTRIES, leaf s'.entry d i' j
      = setLeaf (sharedFrom (leaf σ.entry) s.cr3 e i 0) s.cr3 windowEntry k none d i' j := by
    intro d hd i' hi' j hj
    rw [hclose.leaf d hd i' hi' j hj, hvpdx, hvptx, hcr₁]
    by_cases hno : d = s.cr3 ∧ i' = windowEntry ∧ j = k
    · rw [setLeaf, setLeaf, if_pos hno, if_pos hno]
    · rw [setLeaf_of_ne hno, setLeaf_of_ne hno, hshare.leaf d hd i' hi' j hj, h.cr3]
  have hother : ∀ d ∈ dirs, ∀ i' < userEntries, ∀ j < NPTENTRIES,
      ¬ (d = s.cr3 ∧ i' = windowEntry ∧ j = k) → leaf σ.entry d i' j = leaf s.entry d i' j := by
    intro d hd i' hi' j hj hno
    rw [h.leaf d hd i' hi' j hj, setLeaf_of_ne hno]
  refine ⟨hclose.cr3.trans hcr₁, h.grows, h.slot, h.free, fun d hd i' hi' hor hor' => ?_, ?_,
    fun d hd hde i' hi' j hj => ?_, fun i' hi' hii j hj => ?_, fun j hj => ?_,
    fun f hd ht hk => ?_⟩
  · rw [hclose.pde d hd i' hi' (Or.inr (by rw [hcr₁, hvpdx]; exact hor)), hshare.pde d hd i' hi',
      h.pde d hd i' hi' (Or.inr hor) hor']
  · have hpage : leaf σ.entry s.cr3 windowEntry k = some (.make t PTE_W) := by
      rw [h.leaf _ hcr _ hwindow _ h.slot, setLeaf_self]
    obtain ⟨u, hu, -, -⟩ := leaf_eq_some hpage
    have hvalid := (target_eq_some.mp hu).1
    rw [← hshare.pde _ hcr _ hwindow] at hvalid
    rw [hclose.pde _ hcr _ hwindow (Or.inl hvalid)]
    exact hvalid
  · rw [hleaf d hd i' hi' j hj]
    by_cases hslot : d = s.cr3 ∧ i' = windowEntry ∧ j = k
    · obtain ⟨rfl, rfl, rfl⟩ := hslot
      rw [setLeaf_self, h.free, Option.map_none, ite_self]
    · rw [setLeaf_of_ne hslot, sharedFrom]
      by_cases hrow : d = s.cr3 ∧ i' = i
      · obtain ⟨rfl, rfl⟩ := hrow
        rw [if_pos ⟨Or.inl rfl, rfl, Nat.zero_le j⟩, if_pos ⟨rfl, rfl⟩, hother _ hd i' hi' j hj hslot]
      · rw [if_neg hrow, if_neg fun hno => hrow ⟨hno.1.resolve_right hde, hno.2.1⟩,
          hother d hd i' hi' j hj hslot]
  · rw [hleaf e he i' hi' j hj, setLeaf_of_ne fun hno => hne hno.1, sharedFrom,
      if_neg fun hno => hii hno.2.1, hother e he i' hi' j hj fun hno => hne hno.1]
  · rw [hleaf e he i hi j hj, setLeaf_of_ne fun hno => hne hno.1, sharedFrom,
      if_pos ⟨Or.inr rfl, rfl, Nat.zero_le j⟩]
    by_cases hslot : i = windowEntry ∧ j = k
    · obtain ⟨rfl, rfl⟩ := hslot
      rw [if_pos ⟨rfl, rfl⟩, h.leaf _ hcr _ hi _ hj, setLeaf_self, Option.map_some]
    · rw [if_neg hslot, hother _ hcr i hi j hj fun hno => hslot hno.2]
  · rw [hclose.ram f hd ht hk, hshare.ram f hd ht hk, h.ram f hd ht hk]

/-- **The body of the outer loop of `MmCloneProcessAddressSpace`.** -/
theorem Ledger.cloneTable {status : KSTATUS} (h : Ledger L dirs tables held out s)
    (hcr : s.cr3 ∈ dirs) (he : e ∈ dirs) (hne : e ≠ s.cr3) (hi : i < userEntries)
    (hrun : cloneTable s.cr3 e (pageAt i 0) s = .ok (status, s')) :
    s.entry e i = ⟨0⟩ ∧ (((s.entry s.cr3 i).Valid = false ∧ status = .STATUS_SUCCESS ∧ s' = s)
      ∨ (status = .STATUS_NO_MEMORY ∧ s' = s)
      ∨ (s.entry s.cr3 i).Valid = true ∧ status = .STATUS_SUCCESS ∧ ∃ tables' k t,
        Ledger L dirs tables' held out s' ∧ TableCloned L dirs tables tables' e i k t s s') := by
  obtain ⟨-, hpdx, -⟩ := pageAt_user hi (j := 0) (by decide)
  obtain ⟨_, -, hrun⟩ := kernel_bind_eq_ok.mp hrun
  obtain ⟨_, hassert, hrun⟩ := kernel_bind_eq_ok.mp hrun
  have hzero : s.entry e i = ⟨0⟩ := by
    have hlong := assert_eq_ok.mp hassert
    rw [hpdx] at hlong
    exact MMPTE.ext hlong
  refine ⟨hzero, ?_⟩
  cases hpde : (s.entry s.cr3 i).Valid with
  | false =>
    rw [State.pde, hpdx, hpde, if_neg (by decide)] at hrun
    cases hrun
    exact Or.inl ⟨rfl, rfl, rfl⟩
  | true =>
    rw [State.pde, hpdx, hpde, if_pos rfl] at hrun
    cases hfree : s.PfnFreeList with
    | nil =>
      simp only [mmAllocatePFN, hfree] at hrun
      cases hrun
      exact Or.inr (Or.inl ⟨rfl, rfl⟩)
    | cons t rest =>
      simp only [mmAllocatePFN, hfree] at hrun
      obtain ⟨⟨r, s₁⟩, hwindow, hcopy⟩ := kernel_bind_eq_ok.mp hrun
      rcases h.openWindow hcr he hne hi hzero hfree hwindow with
        rfl | ⟨k, tables₂, rfl, hledger, hopen⟩
      · cases hcopy
      dsimp only at hcopy
      rw [hopen.frame hledger hcr he hne hi] at hcopy
      obtain ⟨s₂, hshare, hcopy⟩ := kernel_bind_eq_ok.mp hcopy
      obtain ⟨s₃, hclose, hcopy⟩ := kernel_bind_eq_ok.mp hcopy
      cases hcopy
      have hcloning := hopen.cloning hledger hcr he hne hi hpde
      have hempty := hopen.empty he hne hi hzero
      obtain ⟨hledger₂, hcloning₂, hchange₂⟩ := hledger.sharePagesLoop hcloning (Nat.zero_add _) hempty
        hshare
      obtain ⟨hledger₃, hchange₃⟩ := hledger₂.mmUnMapPageTemp hcloning₂.cr3
        (pageAt_window hopen.slot).1 hclose
      exact Or.inr (Or.inr ⟨rfl, rfl, tables₂, k, t, hledger₃,
        .of_window hopen hchange₂ hchange₃ hcr he hne hi⟩)

/-! ## All page tables -/

/-- **What a fork keeps**, whether it succeeds or not: the contents of the user pages of all address
spaces but the new one. -/
structure Sharing (L : Layout) (dirs tables tables' : Finset Nat) (e : Nat) (s s' : State) : Prop where
  grows : tables ⊆ tables'
  contents : ∀ d ∈ dirs, d ≠ e → ∀ i < userEntries, ∀ j < NPTENTRIES,
    s'.contents d i j = s.contents d i j
  ram : ∀ f, f ∉ dirs → f ∉ tables' → f ∉ L.kernel → s'.ram f = s.ram f

/-- Nothing is shared. -/
theorem Sharing.refl (s : State) : Sharing L dirs tables tables e s s :=
  ⟨Finset.Subset.refl _, fun _ _ _ _ _ _ _ => rfl, fun _ _ _ _ => rfl⟩

/-- One part of a fork and the parts after it. -/
theorem Sharing.trans {tables₁ tables₂ : Finset Nat} {s₁ s₂ : State}
    (h : Sharing L dirs tables tables₁ e s s₁) (h' : Sharing L dirs tables₁ tables₂ e s₁ s₂) :
    Sharing L dirs tables tables₂ e s s₂ where
  grows := h.grows.trans h'.grows
  contents d hd hde i hi j hj := by rw [h'.contents d hd hde i hi j hj, h.contents d hd hde i hi j hj]
  ram f hd ht hk := by rw [h'.ram f hd ht hk, h.ram f hd (fun hin => ht (h'.grows hin)) hk]

/-- **A page that is shared keeps its contents.** -/
theorem Shape.contents_shared {E : Entries} {d d' i' j' : Nat} (h : Shape L dirs tables E)
    (hE : E = s'.entry) (hd : d ∈ dirs) (hi : i < userEntries) (hj : j < NPTENTRIES)
    (hleaf : leaf s'.entry d i j = (leaf s.entry d' i' j').map MMPTE.shared)
    (hcow : ∀ p, leaf s.entry d' i' j' = some p → p.CopyOnWrite = true → p.Writable = false)
    (hram : ∀ f, f ∉ dirs → f ∉ tables → f ∉ L.kernel → s'.ram f = s.ram f) :
    s'.contents d i j = s.contents d' i' j' := by
  subst hE
  refine contents_of_leaf MMPTE.shared hleaf (fun p hp => ?_) fun p hp hu => ?_
  · obtain ⟨-, -, huser, hframe⟩ := p.shared_fields (hcow p hp)
    exact ⟨huser, hframe⟩
  · obtain ⟨-, -, huser, hframe⟩ := p.shared_fields (hcow p hp)
    rw [hp, Option.map_some] at hleaf
    obtain ⟨hdata, -⟩ := h.isData hd hi hj hleaf (huser.trans hu)
    rw [hframe] at hdata
    exact hram _ hdata.notDir hdata.notTable hdata.notKernel

/-- **Copying one page table** keeps the contents of the other address spaces. -/
theorem TableCloned.sharing {tables' : Finset Nat} (h : TableCloned L dirs tables tables' e i k t s s')
    (hs : Shape L dirs tables s.entry) (hs' : Shape L dirs tables' s'.entry) :
    Sharing L dirs tables tables' e s s' := by
  refine ⟨h.grows, fun d hd hde i' hi' j hj => ?_, h.ram⟩
  have hleaf := h.kept d hd hde i' hi' j hj
  split at hleaf
  · refine hs'.contents_shared rfl hd hi' hj hleaf (fun p hp => ?_) h.ram
    obtain ⟨u, -, hpage⟩ := hs.leaf_page hd hi' hj hp
    exact hpage.copyOnWrite
  · exact hs'.contents_kept hd hi' hj hleaf hleaf h.ram

/-- **The page table of the window is copied** when the loop comes to it: it is there already, or a page
table below it is copied, for which it is added. -/
def WindowCopied (s : State) (i : Nat) : Prop :=
  ∃ i', i ≤ i' ∧ i' ≤ windowEntry ∧ (s.entry s.cr3 i').Valid = true

/-- **What has changed when the page tables from `i` on have been copied.** A copy of the window's own
page table has one page more. -/
structure Forked (dirs : Finset Nat) (e i : Nat) (s s' : State) : Prop where
  kept : ∀ d ∈ dirs, d ≠ e → ∀ i' < userEntries, ∀ j < NPTENTRIES, leaf s'.entry d i' j
    = if d = s.cr3 ∧ i ≤ i' then (leaf s.entry d i' j).map MMPTE.shared else leaf s.entry d i' j
  done : ∀ i' < userEntries, i' < i → ∀ j < NPTENTRIES, leaf s'.entry e i' j = leaf s.entry e i' j
  copied : ∀ i' < userEntries, i ≤ i' → i' ≠ windowEntry ∨ ¬ WindowCopied s i →
    ∀ j < NPTENTRIES, leaf s'.entry e i' j = (leaf s.entry s.cr3 i' j).map MMPTE.shared
  window : WindowCopied s i → ∃ k < NPTENTRIES, ∃ t, leaf s.entry s.cr3 windowEntry k = none
    ∧ ∀ j < NPTENTRIES, leaf s'.entry e windowEntry j
      = if j = k then some (MMPTE.make t PTE_W).shared
        else (leaf s.entry s.cr3 windowEntry j).map MMPTE.shared

/-- There is no page behind an entry that is not valid. -/
theorem leaf_of_invalid {E : Entries} {d : Nat} (h : (E d i).Valid = false) (j : Nat) :
    leaf E d i j = none :=
  leaf_of_none (if_neg (by rw [h]; decide))

/-- A page table that is not there. -/
theorem Forked.skip (h : Forked dirs e (i + 1) s s') (hi : i < userEntries)
    (hinvalid : (s.entry s.cr3 i).Valid = false) (hzero : s.entry e i = ⟨0⟩) :
    Forked dirs e i s s' := by
  have hnone : ∀ j, leaf s.entry s.cr3 i j = none := leaf_of_invalid hinvalid
  have hnew : ∀ j, leaf s.entry e i j = none := fun j =>
    leaf_of_none (by rw [hzero, target_zero])
  have hwindow : WindowCopied s i → WindowCopied s (i + 1) := by
    rintro ⟨i', hlo, hhi, hvalid⟩
    refine ⟨i', ?_, hhi, hvalid⟩
    by_contra hlt
    obtain rfl : i' = i := by omega
    rw [hinvalid] at hvalid
    cases hvalid
  refine ⟨fun d hd hde i' hi' j hj => ?_, fun i' hi' hlt => h.done i' hi' (by omega),
    fun i' hi' hle hor j hj => ?_, fun hw => h.window (hwindow hw)⟩
  · rw [h.kept d hd hde i' hi' j hj]
    by_cases hii : d = s.cr3 ∧ i' = i
    · obtain ⟨rfl, rfl⟩ := hii
      rw [hnone, Option.map_none, ite_self, ite_self]
    · exact if_congr (by omega) rfl rfl
  · by_cases hii : i' = i
    · subst hii
      rw [h.done i' hi' (by omega) j hj, hnew, hnone, Option.map_none]
    · refine h.copied i' hi' (by omega) (hor.imp id fun hno hw => hno ?_) j hj
      obtain ⟨i₁, hlo, hrest⟩ := hw
      exact ⟨i₁, by omega, hrest⟩

/-- **One page table and the page tables after it.** -/
theorem Forked.step {tables' : Finset Nat} {s₁ : State}
    (hfirst : TableCloned L dirs tables tables' e i k t s s₁) (h : Forked dirs e (i + 1) s₁ s')
    (hcr : s.cr3 ∈ dirs) (hne : e ≠ s.cr3) (hi : i < userEntries)
    (hvalid : (s.entry s.cr3 i).Valid = true) : Forked dirs e i s s' := by
  have hcr₁ := hfirst.cr3
  have hparent : ∀ i' < userEntries, i' ≠ i → ∀ j < NPTENTRIES,
      leaf s₁.entry s.cr3 i' j = leaf s.entry s.cr3 i' j := by
    intro i' hi' hii j hj
    rw [hfirst.kept _ hcr hne.symm i' hi' j hj, if_neg fun hno => hii hno.2]
  have hwindow : windowEntry < userEntries := by decide
  have hcopied : i < windowEntry → WindowCopied s₁ (i + 1) := fun hlt =>
    ⟨windowEntry, hlt, Nat.le_refl _, hcr₁ ▸ hfirst.window⟩
  refine ⟨fun d hd hde i' hi' j hj => ?_, fun i' hi' hlt j hj => ?_,
    fun i' hi' hle hor j hj => ?_, fun hw => ?_⟩
  · rw [h.kept d hd hde i' hi' j hj, hcr₁, hfirst.kept d hd hde i' hi' j hj]
    by_cases hd' : d = s.cr3
    · subst hd'
      rcases Nat.lt_trichotomy i' i with hlt | rfl | hgt
      · rw [if_neg (by omega), if_neg (by omega), if_neg (by omega)]
      · rw [if_neg (by omega), if_pos ⟨rfl, rfl⟩, if_pos ⟨rfl, Nat.le_refl _⟩]
      · rw [if_pos ⟨rfl, hgt⟩, if_neg (by omega), if_pos ⟨rfl, by omega⟩]
    · rw [if_neg fun hno => hd' hno.1, if_neg fun hno => hd' hno.1, if_neg fun hno => hd' hno.1]
  · rw [h.done i' hi' (by omega) j hj, hfirst.done i' hi' (by omega) j hj]
  · have hnotWindow : i' ≠ windowEntry ∨ windowEntry < i := by
      refine hor.imp id fun hno => ?_
      by_contra hle'
      exact hno ⟨i, Nat.le_refl i, Nat.le_of_not_lt hle', hvalid⟩
    by_cases hii : i' = i
    · subst hii
      rw [h.done i' hi' (by omega) j hj, hfirst.copied j hj, if_neg fun hno => by omega]
    · have hor₁ : i' ≠ windowEntry ∨ ¬ WindowCopied s₁ (i + 1) := by
        refine hnotWindow.imp id fun hlt hw => ?_
        obtain ⟨i₁, hlo, hhi, -⟩ := hw
        omega
      rw [h.copied i' hi' (by omega) hor₁ j hj, hcr₁, hparent i' hi' hii j hj]
  · obtain ⟨i₁, hlo, hhi, -⟩ := hw
    rcases Nat.lt_or_eq_of_le (Nat.le_trans hlo hhi) with hlt | heq
    · obtain ⟨k', hk', t', hfree, hall⟩ := h.window (hcopied hlt)
      have hparent' := hparent windowEntry hwindow (Nat.ne_of_gt hlt)
      rw [hcr₁] at hfree hall
      refine ⟨k', hk', t', by rw [← hparent' k' hk', hfree], fun j hj => ?_⟩
      rw [hall j hj, hparent' j hj]
    · subst heq
      refine ⟨k, hfirst.slot, t, hfirst.free, fun j hj => ?_⟩
      rw [h.done _ hi (by omega) j hj, hfirst.copied j hj]
      exact if_congr (by omega) rfl rfl

/-- **The outer loop of `MmCloneProcessAddressSpace`.** -/
theorem Ledger.cloneLoop {status : KSTATUS} (h : Ledger L dirs tables held out s)
    (hcr : s.cr3 ∈ dirs) (he : e ∈ dirs) (hne : e ≠ s.cr3) (hi : i + n = userEntries)
    (hrun : cloneLoop s.cr3 e n (pageAt i 0) s = .ok (status, s')) :
    ∃ tables', Ledger L dirs tables' held out s' ∧ s'.cr3 = s.cr3
      ∧ Sharing L dirs tables tables' e s s'
      ∧ (status = .STATUS_SUCCESS → Forked dirs e i s s') := by
  induction n generalizing i s tables with
  | zero =>
    cases hrun
    have hno : ∀ s₀, ¬ WindowCopied s₀ i := by
      rintro s₀ ⟨i', hlo, hhi, -⟩
      have hwindow : windowEntry < userEntries := by decide
      omega
    refine ⟨tables, h, rfl, .refl _, fun _ => ⟨fun d hd hde i' hi' j hj => ?_, fun _ _ _ _ _ => rfl,
      fun i' hi' hle => by omega, fun hw => absurd hw (hno _)⟩⟩
    rw [if_neg fun hno => by omega]
  | succ n ih =>
    obtain ⟨⟨status₁, s₁⟩, hfirst, hrest⟩ := kernel_bind_eq_ok.mp hrun
    have hlt : i < userEntries := by omega
    have hnext : pageAt i 0 + PTSIZE = pageAt (i + 1) 0 := by
      simp only [pageAt, PTSIZE, PGSIZE]
      omega
    obtain ⟨hzero, hcases⟩ := h.cloneTable hcr he hne hlt hfirst
    rcases hcases with ⟨hinvalid, rfl, rfl⟩ | ⟨rfl, rfl⟩ |
        ⟨hvalid, rfl, tables₁, k, t, hledger, hchange⟩
    · rw [hnext] at hrest
      obtain ⟨tables', hledger, hcr', hsharing, hforked⟩ := ih h hcr hne (by omega) hrest
      exact ⟨tables', hledger, hcr', hsharing,
        fun hstatus => (hforked hstatus).skip hlt hinvalid hzero⟩
    · cases hrest
      exact ⟨tables, h, rfl, .refl _, fun hstatus => by cases hstatus⟩
    · rw [hnext] at hrest
      dsimp only at hrest
      rw [← hchange.cr3] at hrest
      obtain ⟨tables', hledger', hcr', hsharing, hforked⟩ := ih hledger (hchange.cr3 ▸ hcr)
        (hchange.cr3 ▸ hne) (by omega) hrest
      exact ⟨tables', hledger', hcr'.trans hchange.cr3,
        (hchange.sharing h.shape hledger.shape).trans hsharing,
        fun hstatus => .step hchange (hforked hstatus) hcr hne hlt hvalid⟩

/-- **`MmCloneProcessAddressSpace` keeps the ledger**, and copies the loaded address space but for the
window. -/
theorem Ledger.mmCloneProcessAddressSpace {status : KSTATUS} (h : Ledger L dirs tables held out s)
    (hc : c ∈ dirs) (he : e ∈ dirs)
    (hrun : mmCloneProcessAddressSpace c e s = .ok (status, s')) :
    c = s.cr3 ∧ e ≠ s.cr3 ∧ ∃ tables', Ledger L dirs tables' held out s' ∧ s'.cr3 = s.cr3
      ∧ Sharing L dirs tables tables' e s s' ∧ (status = .STATUS_SUCCESS → Forked dirs e 0 s s') := by
  obtain ⟨_, hne, hrun⟩ := kernel_bind_eq_ok.mp hrun
  obtain ⟨_, hcr, hrun⟩ := kernel_bind_eq_ok.mp hrun
  have hne := assert_eq_ok.mp hne
  obtain rfl := assert_eq_ok.mp hcr
  have hstart : (0 : Nat) = pageAt 0 0 := by decide
  rw [hstart] at hrun
  exact ⟨rfl, hne, h.cloneLoop hc he hne (Nat.zero_add _) hrun⟩

end KaushOS.Paging
