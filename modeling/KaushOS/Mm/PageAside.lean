import KaushOS.Mm.PageWindow

/-! # A page table that is not cleared yet

`MmCloneProcessAddressSpace` stores a new page table in the directory of the child before it is
cleared: it has to be mapped in the window first. Until then it holds anything. Mapping it neither
reads nor writes it, so that it may as well have been cleared before.

* **`Aside`** — the frame is no part of the loaded address space.
* **`mmMapPageTemp_clearFrame`** — mapping a page in the window commutes with clearing the frame. -/

namespace KaushOS.Paging

variable {L : Layout} {dirs tables : Finset Nat} {held : Nat → Nat} {out : Finset Nat}
  {s s' : State} {a d i k n t u v pfn perm : Nat} {rest : List Nat} {status : KSTATUS} {r : Option Nat}
  {p : MMPTE}

/-! ## Inserting a page where none was -/

/-- A page is put into a page table that is there. -/
theorem miInsertPage_there (hpde : (s.pde a).Valid = true) (hpte : s.pte a = ⟨0⟩) (hpfn : pfn ≠ 0) :
    miInsertPage s.cr3 a pfn perm s
      = .ok (.STATUS_SUCCESS, miIncReferencePFN pfn (s.setPte a (.make pfn perm))) := by
  have hne : (s.pte a).PageFrameNumber ≠ pfn := by
    rw [hpte, MMPTE.zero_fields.2]
    exact hpfn.symm
  have hzero : ¬ (s.pte a).Long ≠ 0 := by
    rw [hpte]
    exact not_not_intro rfl
  rw [miInsertPage, if_neg (fun hno => hno.1 rfl), insertPageTable, if_pos hpde, kernel_ok_bind]
  simp only [insertFrame, if_neg hne, if_neg hzero]
  rfl

/-- A page is put into a new page table. -/
theorem miInsertPage_new (hpde : (s.pde a).Valid = false) (ha : IsUserAddress a)
    (hfree : s.PfnFreeList = u :: rest) (hu : u < 1048576) (hcr : s.cr3 ≠ u) (hpfn : pfn ≠ 0) :
    miInsertPage s.cr3 a pfn perm s = .ok (.STATUS_SUCCESS, miIncReferencePFN pfn
      ((s.newTable s.cr3 a u rest).setPte a (.make pfn perm))) := by
  have hpde' : ((s.newTable s.cr3 a u rest).pde a).Valid = true := by
    rw [pde_newTable hcr]
    exact (MMPTE.make_fields u userPerm).1
  have hpage : miInsertPage s.cr3 a pfn perm (s.newTable s.cr3 a u rest) = _ :=
    miInsertPage_there hpde' (pte_newTable hcr hu) hpfn
  rw [miInsertPage, if_neg (fun hno => hno.1 rfl), insertPageTable, if_pos hpde', kernel_ok_bind]
    at hpage
  rw [miInsertPage, if_neg (fun hno => hno.1 rfl), insertPageTable_new hpde ha hfree hu,
    kernel_ok_bind]
  exact hpage

/-- There is no frame for a page table. -/
theorem miInsertPage_full (hpde : (s.pde a).Valid = false) (ha : IsUserAddress a)
    (hfree : s.PfnFreeList = []) :
    miInsertPage s.cr3 a pfn perm s = .ok (.STATUS_NO_MEMORY, s) := by
  rw [miInsertPage, if_neg (fun hno => hno.1 rfl), insertPageTable, hpde, assert_of_true ha]
  simp only [mmAllocatePFN, hfree]
  rfl

/-! ## Clearing the frame first -/

/-- **The frame `t` is no part of the loaded address space**, and is not free. -/
structure Aside (s : State) (t : Nat) : Prop where
  cr3 : s.cr3 ≠ t
  free : ∀ f ∈ s.PfnFreeList, f < 1048576 ∧ f ≠ t ∧ s.cr3 ≠ f
  table : ∀ a, IsUserAddress a → (s.pde a).Valid = true → (s.pde a).PageFrameNumber ≠ t
  empty : ∀ a, IsUserAddress a → (s.pde a).Valid = true → (s.pte a).Valid = false → s.pte a = ⟨0⟩

/-- Two frames are cleared in any order. -/
theorem clearFrame_comm (s : State) (t u : Nat) :
    (s.clearFrame t).clearFrame u = (s.clearFrame u).clearFrame t := by
  by_cases htu : t = u
  · rw [htu]
  · simp only [State.clearFrame, PhysicalMemory.clear]
    rw [Function.update_comm (Ne.symm htu)]

/-- The entry of a page directory while another frame is cleared. -/
theorem pde_clearFrame (hcr : s.cr3 ≠ t) (a : Nat) : (s.clearFrame t).pde a = s.pde a :=
  entry_clearFrame_of_ne hcr

/-- The entry of a page table while another frame is cleared. -/
theorem pte_clearFrame (hcr : s.cr3 ≠ t) (hne : (s.pde a).PageFrameNumber ≠ t) :
    (s.clearFrame t).pte a = s.pte a := by
  rw [State.pte, pde_clearFrame hcr]
  exact entry_clearFrame_of_ne hne

/-- A store to a page table and clearing another frame. -/
theorem setPte_clearFrame (hcr : s.cr3 ≠ t) (hne : (s.pde a).PageFrameNumber ≠ t) :
    (s.clearFrame t).setPte a p = (s.setPte a p).clearFrame t := by
  rw [State.setPte, pde_clearFrame hcr]
  exact (clearFrame_setEntry p hne).symm

/-- A new page table and clearing another frame. -/
theorem newTable_clearFrame (hcr : s.cr3 ≠ t) :
    (s.clearFrame t).newTable s.cr3 a u rest = (s.newTable s.cr3 a u rest).clearFrame t := by
  have hstore : (miIncReferencePFN u { s.clearFrame t with PfnFreeList := rest }).setEntry s.cr3
      (PDX a) (.make u userPerm) = ((miIncReferencePFN u { s with PfnFreeList := rest }).setEntry
        s.cr3 (PDX a) (.make u userPerm)).clearFrame t :=
    (clearFrame_setEntry (s := miIncReferencePFN u { s with PfnFreeList := rest }) _ hcr).symm
  rw [State.newTable, hstore, clearFrame_comm]
  rfl

/-- **Mapping a page neither reads nor writes a frame that is aside.** -/
theorem Aside.miInsertPage (h : Aside s t) (ha : IsUserAddress a)
    (hpte : (s.pde a).Valid = true → (s.pte a).Valid = false) (hpfn : pfn ≠ 0)
    (hrun : miInsertPage s.cr3 a pfn perm s = .ok (status, s')) :
    miInsertPage s.cr3 a pfn perm (s.clearFrame t) = .ok (status, s'.clearFrame t) := by
  have hpdeClear := pde_clearFrame h.cr3 a
  cases hpde : (s.pde a).Valid with
  | true =>
    have hne := h.table a ha hpde
    have hempty := h.empty a ha hpde (hpte hpde)
    have hclear : (s.clearFrame t).pte a = s.pte a := pte_clearFrame h.cr3 hne
    rw [miInsertPage_there hpde hempty hpfn] at hrun
    cases hrun
    refine (miInsertPage_there (s := s.clearFrame t) (hpdeClear ▸ hpde) (hclear ▸ hempty)
      hpfn).trans ?_
    rw [setPte_clearFrame h.cr3 hne]
    rfl
  | false =>
    have hpde' : ((s.clearFrame t).pde a).Valid = false := hpdeClear ▸ hpde
    cases hfree : s.PfnFreeList with
    | nil =>
      rw [miInsertPage_full hpde ha hfree] at hrun
      cases hrun
      exact miInsertPage_full (s := s.clearFrame t) hpde' ha hfree
    | cons u rest =>
      obtain ⟨hu, hut, hcr⟩ := h.free u (hfree ▸ List.mem_cons_self ..)
      rw [miInsertPage_new hpde ha hfree hu hcr hpfn] at hrun
      cases hrun
      refine (miInsertPage_new (s := s.clearFrame t) hpde' ha hfree hu hcr hpfn).trans ?_
      have hne : ((s.newTable s.cr3 a u rest).pde a).PageFrameNumber ≠ t := by
        rw [pde_newTable hcr, MMPTE.make_frame hu (by decide)]
        exact hut
      have hstate : (s.clearFrame t).newTable (s.clearFrame t).cr3 a u rest
          = (s.newTable s.cr3 a u rest).clearFrame t := newTable_clearFrame h.cr3
      rw [hstate, setPte_clearFrame (show (s.newTable s.cr3 a u rest).cr3 ≠ t from h.cr3) hne]
      rfl

/-- The loop over the window. -/
theorem Aside.mapPageTempLoop (h : Aside s t) (hpfn : pfn ≠ 0)
    (hpde : (s.entry s.cr3 windowEntry).Valid = true) (hk : k + n = NPTENTRIES)
    (hrun : mapPageTempLoop pfn n (pageAt windowEntry k) s = .ok (r, s')) :
    Paging.mapPageTempLoop pfn n (pageAt windowEntry k) (s.clearFrame t) = .ok (r, s'.clearFrame t)
    := by
  induction n generalizing k with
  | zero =>
    cases hrun
    rfl
  | succ n ih =>
    obtain ⟨huser, hpdx, -⟩ := pageAt_window (k := k) (by omega)
    have hpde' : (s.pde (pageAt windowEntry k)).Valid = true := by
      rw [State.pde, hpdx]
      exact hpde
    have hclear : (s.clearFrame t).pte (pageAt windowEntry k) = s.pte (pageAt windowEntry k) :=
      pte_clearFrame h.cr3 (h.table _ huser hpde')
    rw [Paging.mapPageTempLoop] at hrun ⊢
    rw [hclear]
    cases hpte : (s.pte (pageAt windowEntry k)).Valid with
    | true =>
      rw [hpte, if_pos rfl, pageAt_succ] at hrun
      rw [if_pos rfl, pageAt_succ]
      exact ih (by omega) hrun
    | false =>
      rw [hpte, if_neg (by decide)] at hrun
      rw [if_neg (by decide)]
      obtain ⟨⟨status, s₁⟩, hinsert, hreturn⟩ := kernel_bind_eq_ok.mp hrun
      refine kernel_bind_eq_ok.mpr ⟨_, h.miInsertPage huser (fun _ => hpte) hpfn hinsert, ?_⟩
      cases status <;> (cases hreturn; rfl)

/-- **Mapping in the window commutes with clearing a frame that is aside.** -/
theorem Aside.mmMapPageTemp (h : Aside s t) (hpfn : pfn ≠ 0)
    (hrun : mmMapPageTemp pfn s = .ok (r, s')) :
    Paging.mmMapPageTemp pfn (s.clearFrame t) = .ok (r, s'.clearFrame t) := by
  have hstart : pageAt windowEntry 0 = USERTEMP := by decide
  have hlen : (USERTEMPEND - USERTEMP) / PGSIZE = NPTENTRIES := by decide
  unfold Paging.mmMapPageTemp at hrun ⊢
  rw [pde_clearFrame h.cr3, hlen, ← hstart]
  rw [hlen, ← hstart] at hrun
  obtain ⟨huser, hpdx, -⟩ := pageAt_window (k := 0) (by decide)
  cases hpde : (s.pde (pageAt windowEntry 0)).Valid with
  | true =>
    rw [hpde, if_pos rfl] at hrun
    rw [if_pos rfl]
    rw [State.pde, hpdx] at hpde
    exact h.mapPageTempLoop hpfn hpde (Nat.zero_add _) hrun
  | false =>
    rw [hpde, if_neg (by decide)] at hrun
    rw [if_neg (by decide)]
    obtain ⟨⟨status, s₁⟩, hinsert, hreturn⟩ := kernel_bind_eq_ok.mp hrun
    refine kernel_bind_eq_ok.mpr ⟨_, h.miInsertPage huser
      (fun hvalid => by rw [hpde] at hvalid; cases hvalid) hpfn hinsert, ?_⟩
    cases status <;> (cases hreturn; rfl)

end KaushOS.Paging
