import KaushOS.Mm.PageOperations

/-! # Mapping and unmapping many pages

The loops of `MmMapSegment`, `MmVirtualAlloc` and `MmVirtualFree`: what one pass does to the ledger and
to the address spaces, and from it what the whole loop does.

* **`InRange`** — the pages of a loop.
* **`Reshaped`** — what changes when these pages are mapped or unmapped.
* **`Ledger.mapSegmentLoop`, `Ledger.virtualFreeLoop`** — the loops.
* **`Ledger.mmMapSegment`, `Ledger.mmVirtualAlloc`, `Ledger.mmVirtualFree`** — the routines. -/

namespace KaushOS.Paging

variable {L : Layout} {dirs tables tables' : Finset Nat} {held : Nat → Nat} {out : Finset Nat}
  {s s' s₁ : State} {a b d i j n perm size : Nat} {C C' : Nat → Nat → Prop} {Q : Option MMPTE → Prop}
  {o : Option MMPTE}

/-! ## What changes -/

/-- **The pages** at the addresses `a`, `a + PGSIZE` and so on, by their indices. -/
def InRange (a n i j : Nat) : Prop := ∃ k < n, PDX (a + k * PGSIZE) = i ∧ PTX (a + k * PGSIZE) = j

/-- **What changes when pages of the loaded directory are mapped or unmapped**: the pages in `C`, for
which `Q` holds afterwards. -/
structure Reshaped (L : Layout) (dirs tables tables' : Finset Nat) (C : Nat → Nat → Prop)
    (Q : Option MMPTE → Prop) (s s' : State) : Prop where
  cr3 : s'.cr3 = s.cr3
  grows : tables ⊆ tables'
  pde : ∀ d ∈ dirs, ∀ i < userEntries, (s.entry d i).Valid = true ∨ d ≠ s.cr3 →
    s'.entry d i = s.entry d i
  others : ∀ d ∈ dirs, ∀ i < userEntries, ∀ j < NPTENTRIES, (d = s.cr3 → ¬ C i j) →
    leaf s'.entry d i j = leaf s.entry d i j
  pages : s.cr3 ∈ dirs → ∀ i < userEntries, ∀ j < NPTENTRIES, C i j → Q (leaf s'.entry s.cr3 i j)
  ram : ∀ f, f ∉ dirs → f ∉ tables' → f ∉ L.kernel → s'.ram f = s.ram f
  global : s'.entry L.globalPgdir = s.entry L.globalPgdir
  kernel : ∀ x ∈ L.kernel, ∀ j, s'.entry x j = s.entry x j ∨
    ∀ d ∈ dirs, (s'.entry x j).target ≠ some d

/-- The address of a later page. -/
theorem page_succ (a k : Nat) : a + (k + 1) * PGSIZE = a + PGSIZE + k * PGSIZE := by
  rw [Nat.add_mul, Nat.one_mul]
  omega

/-- No pass, no change. -/
theorem Reshaped.refl (s : State) : Reshaped L dirs tables tables (InRange a 0) Q s s := by
  have hno : ∀ i j, ¬ InRange a 0 i j := by
    rintro i j ⟨k, hk, -⟩
    exact Nat.not_lt_zero k hk
  exact ⟨rfl, Finset.Subset.refl _, fun _ _ _ _ _ => rfl, fun _ _ _ _ _ _ _ => rfl,
    fun _ i _ j _ hin => absurd hin (hno i j), fun _ _ _ _ => rfl, rfl, fun _ _ _ => Or.inl rfl⟩

/-- **One pass and the passes after it.** -/
theorem Reshaped.step {tables₁ tables₂ : Finset Nat} (h : Remapped L dirs tables tables₁ a o s s₁)
    (h' : Reshaped L dirs tables₁ tables₂ (InRange (a + PGSIZE) n) Q s₁ s') (hQ : Q o) :
    Reshaped L dirs tables tables₂ (InRange a (n + 1)) Q s s' where
  cr3 := h'.cr3.trans h.cr3
  grows := h.grows.trans h'.grows
  pde d hd i hi hor := by
    have hfirst := h.pde d hd i hi (hor.imp id Or.inl)
    rw [← h.cr3, ← hfirst] at hor
    rw [h'.pde d hd i hi hor, hfirst]
  others d hd i hi j hj hnot := by
    have hrest : d = s₁.cr3 → ¬ InRange (a + PGSIZE) n i j := by
      rintro hd' ⟨k, hk, hpdx, hptx⟩
      refine hnot (hd'.trans h.cr3) ⟨k + 1, by omega, ?_⟩
      rw [page_succ]
      exact ⟨hpdx, hptx⟩
    rw [h'.others d hd i hi j hj hrest, h.leaf d hd i hi j hj, setLeaf_of_ne]
    rintro ⟨hd', rfl, rfl⟩
    exact hnot hd' ⟨0, by omega, by simp⟩
  pages hcr i hi j hj hin := by
    by_cases hrest : InRange (a + PGSIZE) n i j
    · exact h.cr3 ▸ h'.pages (h.cr3 ▸ hcr) i hi j hj hrest
    · have hfirst : i = PDX a ∧ j = PTX a := by
        obtain ⟨k, hk, hpdx, hptx⟩ := hin
        cases k with
        | zero =>
          rw [Nat.zero_mul, Nat.add_zero] at hpdx hptx
          exact ⟨hpdx.symm, hptx.symm⟩
        | succ k =>
          rw [page_succ] at hpdx hptx
          exact absurd ⟨k, by omega, hpdx, hptx⟩ hrest
      obtain ⟨rfl, rfl⟩ := hfirst
      rw [h'.others _ hcr _ hi _ hj fun _ => hrest, h.leaf _ hcr _ hi _ hj, setLeaf_self]
      exact hQ
  ram f hd ht hk := by
    rw [h'.ram f hd ht hk, h.ram f hd (fun hin => ht (h'.grows hin)) hk]
  global := h'.global.trans h.global
  kernel x hx j := by
    rcases h'.kernel x hx j with heq | hno
    · rw [heq]
      exact h.kernel x hx j
    · exact Or.inr hno

/-! ## The addresses of a loop -/

/-- What can be mapped depends on the loaded directory only. -/
theorem Mappable.congr (h : Mappable L dirs s b) (hcr3 : s'.cr3 = s.cr3) : Mappable L dirs s' b := by
  unfold Mappable
  rw [hcr3]
  exact h

/-- **What is no page directory stays none** when other pages are mapped or unmapped. -/
theorem Remapped.noDirectory {tables tables₁ : Finset Nat}
    (h : Remapped L dirs tables tables₁ a o s s₁) (hs : Ledger L dirs tables held out s)
    (hs₁ : Ledger L dirs tables₁ held out s₁) (hb : Mappable L dirs s b)
    (hdir : NoDirectory dirs s b) : NoDirectory dirs s₁ b := by
  rcases hb with ⟨huser, hcr⟩ | ⟨hk, hcr⟩
  · exact hs₁.noDirectory huser (h.cr3 ▸ hcr)
  · have hpde : s₁.pde b = s.pde b := by
      have hother : ∀ (s : State) (tables : Finset Nat), Ledger L dirs tables held out s →
          s.cr3 ∈ dirs ∨ s.cr3 = L.globalPgdir → s.pde b = s.entry L.globalPgdir (PDX b) := by
        intro s tables hs hcr
        rcases hcr with hcr | hcr
        · exact hs.shape.half _ hcr _ hk
        · rw [State.pde, hcr]
      rw [hother s₁ tables₁ hs₁ (h.cr3 ▸ hcr), hother s tables hs hcr, h.global]
    intro hvalid hpte hin
    have hmem : (s.pde b).PageFrameNumber ∈ L.kernel := by
      rcases hs.shape.slot (Or.inr ⟨hk, hcr⟩) (hpde ▸ hvalid) with ⟨huser, -, -⟩ | ⟨-, hmem⟩
      · have hlt := PDX_user huser
        have hk' := hk.1
        have hle := userEntries_lt.1
        omega
      · exact hmem
    rw [State.pte, hpde] at hpte hin
    rcases h.kernel _ hmem (PTX b) with heq | hno
    · rw [heq] at hpte hin
      exact hdir (hpde ▸ hvalid) hpte hin
    · exact hno _ hin (target_of_valid hpte)

/-- The pages after the first one. -/
theorem next_page {P : Nat → Prop} (h : ∀ k < n + 1, P (a + k * PGSIZE)) :
    P a ∧ ∀ k < n, P (a + PGSIZE + k * PGSIZE) := by
  refine ⟨by simpa using h 0 (Nat.succ_pos n), fun k hk => ?_⟩
  rw [← page_succ]
  exact h (k + 1) (by omega)

/-! ## The loops -/

/-- The next page of a range that does not wrap around. -/
theorem ulongAdd_page (hend : a + (n + 2) * PGSIZE ≤ ULONG_VALUES) :
    ulongAdd a PGSIZE = a + PGSIZE ∧ a + PGSIZE + (n + 1) * PGSIZE ≤ ULONG_VALUES := by
  have hnext : a + (n + 2) * PGSIZE = a + PGSIZE + (n + 1) * PGSIZE := page_succ a (n + 1)
  have hpage : PGSIZE ≤ (n + 1) * PGSIZE := Nat.le_mul_of_pos_left _ (Nat.succ_pos n)
  have hpos : 0 < PGSIZE := by decide
  refine ⟨?_, by omega⟩
  rw [ulongAdd, Nat.mod_eq_of_lt]
  omega

/-- A page that has been mapped with the permissions `perm`. -/
def Mapped (L : Layout) (perm : Nat) (o : Option MMPTE) : Prop :=
  ∃ f ∈ L.managed, o = some (.make f perm)

/-- **The loop of `MmMapSegment`.** -/
theorem Ledger.mapSegmentLoop (h : Ledger L dirs tables held out s) (hbound : perm < 4096)
    (hcow : perm.testBit 11 = false)
    (ha : ∀ k < n, Mappable L dirs s (a + k * PGSIZE) ∧ NoDirectory dirs s (a + k * PGSIZE))
    (huser : perm.testBit 2 = true → ∀ k < n, IsUserAddress (a + k * PGSIZE))
    (hrun : mapSegmentLoop s.cr3 perm n a s = .ok s') :
    ∃ tables', Ledger L dirs tables' held out s'
      ∧ Reshaped L dirs tables tables' (InRange a n) (Mapped L perm) s s' := by
  induction n generalizing a s tables with
  | zero =>
    cases hrun
    exact ⟨tables, h, .refl _⟩
  | succ n ih =>
    obtain ⟨⟨hmap, hdir⟩, hrest⟩ :=
      next_page (P := fun b => Mappable L dirs s b ∧ NoDirectory dirs s b) ha
    rw [Paging.mapSegmentLoop] at hrun
    cases hfree : s.PfnFreeList with
    | nil =>
      simp only [mmAllocatePFN, hfree] at hrun
      cases hrun
    | cons pfn rest =>
      simp only [mmAllocatePFN, hfree] at hrun
      obtain ⟨⟨status, s₁⟩, hinsert, hrun⟩ := kernel_bind_eq_ok.mp hrun
      cases status with
      | STATUS_NO_MEMORY => cases hrun
      | STATUS_SUCCESS =>
        obtain ⟨tables₁, hledger, hchange⟩ := h.mapFresh hmap hfree hbound hcow
          (fun hu => (next_page (huser hu)).1) hdir hinsert
        have hmem := (h.free pfn (hfree ▸ List.mem_cons_self ..)).1
        obtain ⟨tables₂, hledger₂, hchange₂⟩ := ih hledger
          (fun k hk => ⟨(hrest k hk).1.congr hchange.cr3,
            hchange.noDirectory h hledger (hrest k hk).1 (hrest k hk).2⟩)
          (fun hu => (next_page (huser hu)).2) (by rw [hchange.cr3]; exact hrun)
        exact ⟨tables₂, hledger₂, Reshaped.step hchange hchange₂ ⟨pfn, hmem, rfl⟩⟩

/-- **The loop of `MmVirtualFree`.** -/
theorem Ledger.virtualFreeLoop (h : Ledger L dirs tables held out s)
    (hend : a + n * PGSIZE ≤ ULONG_VALUES)
    (ha : ∀ k < n, Mappable L dirs s (a + k * PGSIZE) ∧ NoDirectory dirs s (a + k * PGSIZE))
    (hrun : virtualFreeLoop n a s = .ok s') :
    Ledger L dirs tables held out s'
      ∧ Reshaped L dirs tables tables (InRange a n) (· = none) s s' := by
  induction n generalizing a s with
  | zero =>
    cases hrun
    exact ⟨h, .refl _⟩
  | succ n ih =>
    obtain ⟨⟨hmap, hdir⟩, hrest⟩ :=
      next_page (P := fun b => Mappable L dirs s b ∧ NoDirectory dirs s b) ha
    obtain ⟨s₁, hremove, hrun⟩ := kernel_bind_eq_ok.mp hrun
    obtain ⟨hledger, hchange⟩ := h.miRemovePage hmap hdir hremove
    cases n with
    | zero =>
      cases hrun
      exact ⟨hledger, Reshaped.step hchange (.refl _) rfl⟩
    | succ n =>
      obtain ⟨hnext, hend'⟩ := ulongAdd_page hend
      rw [hnext] at hrun
      obtain ⟨hledger₂, hchange₂⟩ := ih hledger hend' (fun k hk => ⟨(hrest k hk).1.congr hchange.cr3,
        hchange.noDirectory h hledger (hrest k hk).1 (hrest k hk).2⟩) hrun
      exact ⟨hledger₂, Reshaped.step hchange hchange₂ rfl⟩

/-! ## The routines -/

/-- The passes of a loop can be done in two parts. -/
theorem mapSegmentLoop_add (d perm m n a : Nat) (s : State) :
    mapSegmentLoop d perm (m + n) a s
      = mapSegmentLoop d perm m a s >>= fun s => mapSegmentLoop d perm n (a + m * PGSIZE) s := by
  induction m generalizing a s with
  | zero => simp [Paging.mapSegmentLoop]
  | succ m ih =>
    rw [show m + 1 + n = m + n + 1 by omega, Paging.mapSegmentLoop, Paging.mapSegmentLoop]
    cases mmAllocatePFN s with
    | mk pfn s₁ =>
      cases pfn with
      | none => rfl
      | some pfn =>
        simp only [bind_assoc]
        refine bind_congr fun r => ?_
        cases r.1 with
        | STATUS_NO_MEMORY => rfl
        | STATUS_SUCCESS =>
          simp only [ih, page_succ]

/-- **A loop that starts in the user half stays there**: nothing can be mapped at `USERTOP`. -/
theorem Ledger.mapSegmentLoop_user (h : Ledger L dirs tables held out s) (hcr : s.cr3 ∈ dirs)
    (hbound : perm < 4096) (hcow : perm.testBit 11 = false) (ha : IsUserAddress a)
    (halign : a % PGSIZE = 0) (hrun : Paging.mapSegmentLoop s.cr3 perm n a s = .ok s') :
    ∀ k < n, IsUserAddress (a + k * PGSIZE) := by
  obtain ⟨m, hm⟩ : ∃ m, a + m * PGSIZE = USERTOP := by
    refine ⟨(USERTOP - a) / PGSIZE, ?_⟩
    simp only [IsUserAddress, USERTOP, PGSIZE] at *
    omega
  have hbelow : ∀ k < m, IsUserAddress (a + k * PGSIZE) := by
    intro k hk
    simp only [IsUserAddress, USERTOP, PGSIZE] at *
    omega
  by_cases hn : n ≤ m
  · exact fun k hk => hbelow k (by omega)
  · obtain ⟨r, rfl⟩ : ∃ r, n = m + (r + 1) := ⟨n - m - 1, by omega⟩
    rw [mapSegmentLoop_add] at hrun
    obtain ⟨s₁, hfirst, hrun⟩ := kernel_bind_eq_ok.mp hrun
    obtain ⟨tables₁, hledger, hchange⟩ := h.mapSegmentLoop hbound hcow
      (fun k hk => ⟨Or.inl ⟨hbelow k hk, hcr⟩, h.noDirectory (hbelow k hk) hcr⟩)
      (fun _ => hbelow) hfirst
    have hpdx : userEntries ≤ PDX USERTOP ∧ PDX USERTOP < kernelEntry ∧ ¬ IsUserAddress USERTOP := by
      decide
    rw [hm, Paging.mapSegmentLoop] at hrun
    cases hfree : s₁.PfnFreeList with
    | nil =>
      simp only [mmAllocatePFN, hfree] at hrun
      cases hrun
    | cons pfn rest =>
      simp only [mmAllocatePFN, hfree] at hrun
      obtain ⟨r, hinsert, -⟩ := kernel_bind_eq_ok.mp hrun
      rw [← hchange.cr3] at hinsert
      exact absurd hinsert ((hledger.allocate hfree).hole (hchange.cr3 ▸ hcr) hpdx.1 hpdx.2.1
        hpdx.2.2 r)

/-- The pages of a segment. -/
def SegmentPages (address length : Nat) : Nat → Nat → Prop :=
  InRange (roundDown address PGSIZE)
    ((roundUp (ulongAdd address length) PGSIZE - roundDown address PGSIZE) / PGSIZE)

/-- **`MmMapSegment`** for a segment that starts in the user half. -/
theorem Ledger.mmMapSegment {address length : Nat} (h : Ledger L dirs tables held out s)
    (hcr : s.cr3 ∈ dirs) (hbound : perm < 4096) (hcow : perm.testBit 11 = false)
    (ha : IsUserAddress address) (hrun : mmMapSegment s.cr3 address length perm s = .ok s') :
    ∃ tables', Ledger L dirs tables' held out s'
      ∧ Reshaped L dirs tables tables' (SegmentPages address length) (Mapped L perm) s s' := by
  have hstart : IsUserAddress (roundDown address PGSIZE) := by
    simp only [IsUserAddress, roundDown] at *
    omega
  have halign : roundDown address PGSIZE % PGSIZE = 0 := by
    simp only [roundDown, PGSIZE]
    omega
  have huser := h.mapSegmentLoop_user hcr hbound hcow hstart halign hrun
  exact h.mapSegmentLoop hbound hcow
    (fun k hk => ⟨Or.inl ⟨huser k hk, hcr⟩, h.noDirectory (huser k hk) hcr⟩) (fun _ => huser) hrun

/-- `MmVirtualAlloc` maps the pages that `MmMapSegment` maps. -/
theorem virtualAllocLoop_ok (hend : a + n * PGSIZE ≤ ULONG_VALUES)
    (hrun : virtualAllocLoop perm n a s = .ok s') :
    Paging.mapSegmentLoop s.cr3 (perm ||| PTE_P) n a s = .ok s' := by
  induction n generalizing a s with
  | zero => exact hrun
  | succ n ih =>
    rw [virtualAllocLoop] at hrun
    rw [Paging.mapSegmentLoop]
    cases hfree : s.PfnFreeList with
    | nil =>
      simp only [mmAllocatePFN, hfree] at hrun
      cases hrun
    | cons pfn rest =>
      simp only [mmAllocatePFN, hfree] at hrun ⊢
      obtain ⟨⟨status, s₁⟩, hinsert, hrun⟩ := kernel_bind_eq_ok.mp hrun
      refine kernel_bind_eq_ok.mpr ⟨_, hinsert, ?_⟩
      have hcr := miInsertPage_cr3 hinsert
      cases status with
      | STATUS_NO_MEMORY => cases hrun
      | STATUS_SUCCESS =>
        cases n with
        | zero => exact hrun
        | succ n =>
          obtain ⟨hnext, hend'⟩ := ulongAdd_page hend
          rw [hnext] at hrun
          rw [← show s₁.cr3 = s.cr3 from hcr]
          exact ih hend' hrun

/-- **`MmVirtualAlloc`.** -/
theorem Ledger.mmVirtualAlloc (h : Ledger L dirs tables held out s) (hbound : perm < 4096)
    (hcow : perm.testBit 11 = false) (hend : a + roundUp size PGSIZE ≤ ULONG_VALUES)
    (ha : ∀ k < roundUp size PGSIZE / PGSIZE, Mappable L dirs s (a + k * PGSIZE)
      ∧ NoDirectory dirs s (a + k * PGSIZE)
      ∧ (perm.testBit 2 = true → IsUserAddress (a + k * PGSIZE)))
    (hrun : mmVirtualAlloc a size perm s = .ok s') :
    ∃ tables', Ledger L dirs tables' held out s'
      ∧ Reshaped L dirs tables tables' (InRange a (roundUp size PGSIZE / PGSIZE))
        (Mapped L (perm ||| PTE_P)) s s' := by
  have hpresent : PTE_P.testBit 2 = false ∧ PTE_P.testBit 11 = false := by decide
  have hpages : a + roundUp size PGSIZE / PGSIZE * PGSIZE ≤ ULONG_VALUES :=
    (Nat.add_le_add_left (Nat.div_mul_le_self ..) a).trans hend
  have hbound' : perm ||| PTE_P < 2 ^ 12 := Nat.or_lt_two_pow hbound (by decide)
  refine h.mapSegmentLoop hbound' ?_
    (fun k hk => ⟨(ha k hk).1, (ha k hk).2.1⟩) (fun hu k hk => (ha k hk).2.2 ?_)
    (virtualAllocLoop_ok hpages hrun)
  · rw [Nat.testBit_or, hcow, hpresent.2]
    rfl
  · rw [Nat.testBit_or, hpresent.1, Bool.or_false] at hu
    exact hu

/-- **`MmVirtualFree`.** -/
theorem Ledger.mmVirtualFree (h : Ledger L dirs tables held out s)
    (hend : a + roundUp size PGSIZE ≤ ULONG_VALUES)
    (ha : ∀ k < roundUp size PGSIZE / PGSIZE, Mappable L dirs s (a + k * PGSIZE)
      ∧ NoDirectory dirs s (a + k * PGSIZE))
    (hrun : mmVirtualFree a size s = .ok s') :
    Ledger L dirs tables held out s'
      ∧ Reshaped L dirs tables tables (InRange a (roundUp size PGSIZE / PGSIZE)) (· = none) s s' :=
  h.virtualFreeLoop ((Nat.add_le_add_left (Nat.div_mul_le_self ..) a).trans hend) ha hrun

end KaushOS.Paging
