import KaushOS.Mm.PageShape

/-! # The references of the frames

The PFN database beside the page tables. A frame has one reference from every valid entry that holds
it; the references that a routine has taken and not yet stored are *held*, and the frames that it has
allocated and not yet used are *out*.

* **`Ledger`** — the invariant: `RefCount` is the number of references, what has none is free, and what
  a process may write has no other reference.
* **`Ledger.allocate`, `Ledger.inc`, `Ledger.dec`** — the PFN database changes.
* **`Ledger.storePage`, `Ledger.addTable`, `Ledger.removeTable`, `Ledger.addDir`,
  `Ledger.removeDir`** — the entries change. -/

namespace KaushOS.Paging

/-- **The ledger.** -/
structure Ledger (L : Layout) (dirs tables : Finset Nat) (held : Nat → Nat) (out : Finset Nat)
    (s : State) : Prop where
  shape : Shape L dirs tables s.entry
  nodup : s.PfnFreeList.Nodup
  free : ∀ f ∈ s.PfnFreeList, f ∈ L.managed ∧ s.RefCount f = 0 ∧ f ∉ out
  unused : ∀ f ∈ out, s.RefCount f = 0
  idle : ∀ f ∈ L.managed, s.RefCount f = 0 → f ∈ s.PfnFreeList ∨ f ∈ out
  count : ∀ f ∈ L.managed, s.RefCount f = refs L dirs tables s.entry f + held f
  exclusive : ∀ t ∈ tables, ∀ j < NPTENTRIES, (s.entry t j).Valid = true →
    (s.entry t j).UserPriv = true → (s.entry t j).Writable = true →
    s.RefCount (s.entry t j).PageFrameNumber = 1
  alive : ∀ d ∈ dirs, s.RefCount d ≠ 0

variable {L : Layout} {dirs tables : Finset Nat} {held held' : Nat → Nat} {out : Finset Nat}
  {s s' : State} {d t f x i j : Nat} {p : MMPTE} {rest : List Nat}

/-! ## Frames that are in use -/

/-- A frame that an entry of a page table holds. -/
theorem Ledger.page_managed (h : Ledger L dirs tables held out s) (hx : x ∈ tables ∨ x ∈ L.kernel)
    (hj : j < NPTENTRIES) (hf : (s.entry x j).target = some f) :
    f ∈ L.managed ∧ 0 < refs L dirs tables s.entry f ∧ s.RefCount f ≠ 0 := by
  obtain ⟨hvalid, hframe⟩ := target_eq_some.mp hf
  have hpage : L.Page dirs tables x (s.entry x j) := by
    refine (h.shape.page x hx j hj).resolve_left fun hzero => ?_
    rw [hzero, target_zero] at hf
    cases hf
  have hmem : f ∈ L.managed := hframe ▸ hpage.managed
  have hpos := refs_pos h.shape.toDirectories hx hj hf
  have hcount := h.count f hmem
  exact ⟨hmem, hpos, by omega⟩

/-- A page table is referred to. -/
theorem Ledger.table_used (h : Ledger L dirs tables held out s) (ht : t ∈ tables) :
    0 < refs L dirs tables s.entry t ∧ s.RefCount t ≠ 0 := by
  obtain ⟨d, hd, i, hi, he⟩ := h.shape.owner t ht
  have hpos := refs_pos_dir L tables hd hi he
  have hcount := h.count t (h.shape.tables_managed t ht)
  exact ⟨hpos, by omega⟩

/-- A frame without references is held by nothing. -/
theorem Ledger.unreferred (h : Ledger L dirs tables held out s) (hf : f ∈ L.managed)
    (hzero : s.RefCount f = 0) : refs L dirs tables s.entry f = 0 ∧ held f = 0 ∧ f ∉ dirs
      ∧ f ∉ tables ∧ ∀ x, x ∈ tables ∨ x ∈ L.kernel → ∀ j < NPTENTRIES,
        (s.entry x j).target ≠ some f := by
  have hcount := h.count f hf
  refine ⟨by omega, by omega, fun hd => h.alive f hd hzero, fun ht => (h.table_used ht).2 hzero, ?_⟩
  intro x hx j hj heq
  exact (h.page_managed hx hj heq).2.2 hzero

/-- **What one process may only read**, no process may write. -/
theorem Ledger.readonly (h : Ledger L dirs tables held out s) (hx : x ∈ tables ∨ x ∈ L.kernel)
    (hj : j < NPTENTRIES) (hf : (s.entry x j).target = some f) (hw : (s.entry x j).Writable = false) :
    ∀ t ∈ tables, ∀ k < NPTENTRIES, (s.entry t k).target = some f →
      (s.entry t k).UserPriv = true → (s.entry t k).Writable = false := by
  intro t ht k hk he hu
  rw [← Bool.not_eq_true]
  intro hwritable
  obtain ⟨hvalid, hframe⟩ := target_eq_some.mp he
  have hone := h.exclusive t ht k hk hvalid hu hwritable
  have hcount := h.count f (h.page_managed hx hj hf).1
  rw [hframe] at hone
  have hle : refs L dirs tables s.entry f ≤ 1 := by omega
  obtain ⟨rfl, rfl⟩ := refs_unique h.shape.toDirectories hle hx (Or.inl ht) hj hk hf he
  rw [hw] at hwritable
  cases hwritable

/-! ## The PFN database -/

/-- **A frame is allocated**: it goes from the free list to the frames that are out. -/
theorem Ledger.allocate (h : Ledger L dirs tables held out s) (hfree : s.PfnFreeList = f :: rest) :
    Ledger L dirs tables held (insert f out) { s with PfnFreeList := rest } := by
  obtain ⟨hmem, hzero, hout⟩ := h.free f (hfree ▸ List.mem_cons_self ..)
  have hnodup := List.nodup_cons.mp (hfree ▸ h.nodup)
  refine ⟨h.shape, hnodup.2, fun g hg => ?_, fun g hg => ?_, fun g hg hgzero => ?_, h.count,
    h.exclusive, h.alive⟩
  · obtain ⟨hgmem, hgzero, hgout⟩ := h.free g (hfree ▸ List.mem_cons_of_mem f hg)
    refine ⟨hgmem, hgzero, fun hin => ?_⟩
    rcases Finset.mem_insert.mp hin with rfl | hin
    · exact hnodup.1 hg
    · exact hgout hin
  · rcases Finset.mem_insert.mp hg with rfl | hg
    · exact hzero
    · exact h.unused g hg
  · rcases h.idle g hg hgzero with hin | hin
    · rw [hfree] at hin
      rcases List.mem_cons.mp hin with rfl | hin
      · exact Or.inr (Finset.mem_insert_self ..)
      · exact Or.inl hin
    · exact Or.inr (Finset.mem_insert_of_mem hin)

/-- **A reference is taken** on a frame that is not free, and that no process may write. -/
theorem Ledger.inc (h : Ledger L dirs tables held out s) (hf : f ∉ s.PfnFreeList)
    (hwritable : ∀ t ∈ tables, ∀ j < NPTENTRIES, (s.entry t j).target = some f →
      (s.entry t j).UserPriv = true → (s.entry t j).Writable = false)
    (hheld : ∀ g, held' g = held g + if g = f then 1 else 0) :
    Ledger L dirs tables held' (out.erase f) (miIncReferencePFN f s) := by
  have hother : ∀ g, g ≠ f → (miIncReferencePFN f s).RefCount g = s.RefCount g := fun g hg =>
    Function.update_of_ne hg ..
  have hself : (miIncReferencePFN f s).RefCount f = s.RefCount f + 1 := Function.update_self ..
  refine ⟨h.shape, h.nodup, fun g hg => ?_, fun g hg => ?_, fun g hg hzero => ?_, fun g hg => ?_,
    fun t ht j hj hvalid huser hw => ?_, fun d hd => ?_⟩
  · obtain ⟨hmem, hzero, hout⟩ := h.free g hg
    have hne : g ≠ f := fun heq => hf (heq ▸ hg)
    exact ⟨hmem, (hother g hne).trans hzero, fun hin => hout (Finset.mem_of_mem_erase hin)⟩
  · obtain ⟨hne, hg⟩ := Finset.mem_erase.mp hg
    exact (hother g hne).trans (h.unused g hg)
  · have hne : g ≠ f := by
      rintro rfl
      rw [hself] at hzero
      omega
    rw [hother g hne] at hzero
    exact (h.idle g hg hzero).imp id fun hin => Finset.mem_erase.mpr ⟨hne, hin⟩
  · have hcount := h.count g hg
    rw [hheld]
    by_cases hg' : g = f
    · subst hg'
      rw [hself, if_pos rfl, hcount]
      rfl
    · rw [hother g hg', if_neg hg', hcount]
      rfl
  · have hne : (s.entry t j).PageFrameNumber ≠ f := fun heq => by
      have hnot := hwritable t ht j hj (target_eq_some.mpr ⟨hvalid, heq⟩) huser
      rw [show (s.entry t j).Writable = true from hw] at hnot
      cases hnot
    exact (hother _ hne).trans (h.exclusive t ht j hj hvalid huser hw)
  · by_cases hd' : d = f
    · subst hd'
      rw [hself]
      exact Nat.succ_ne_zero _
    · rw [hother d hd']
      exact h.alive d hd

/-- The state after `MiDecReferencePFN`. -/
def State.dec (s : State) (pfn : Nat) : State :=
  let count := if s.RefCount pfn = 0 then ULONG_VALUES - 1 else s.RefCount pfn - 1
  { s with
    RefCount := Function.update s.RefCount pfn count
    PfnFreeList := if count = 0 then pfn :: s.PfnFreeList else s.PfnFreeList }

/-- `MiDecReferencePFN` always returns. -/
theorem miDecReferencePFN_eq (s : State) (pfn : Nat) : miDecReferencePFN pfn s = .ok (s.dec pfn) := by
  unfold miDecReferencePFN State.dec
  generalize (if s.RefCount pfn = 0 then ULONG_VALUES - 1 else s.RefCount pfn - 1) = count
  by_cases hzero : count = 0
  · subst hzero
    have hfreed : Function.update s.RefCount pfn 0 pfn = 0 := Function.update_self ..
    simp only [if_true, miFreePFN, assert_of_true hfreed]
    rfl
  · simp only [if_neg hzero]

/-- Counting down does not change the entries. -/
@[simp] theorem entry_dec (s : State) (pfn : Nat) : (s.dec pfn).entry = s.entry := rfl

/-- Counting down frees no other frame. -/
theorem mem_dec (h : f ∈ (s.dec x).PfnFreeList) : f = x ∨ f ∈ s.PfnFreeList := by
  unfold State.dec at h
  dsimp only at h
  generalize (if s.RefCount x = 0 then ULONG_VALUES - 1 else s.RefCount x - 1) = count at h
  split at h
  · exact List.mem_cons.mp h
  · exact Or.inr h

/-- **A reference that is held is given back.** -/
theorem Ledger.dec (h : Ledger L dirs tables held out s) (hf : f ∈ L.managed) (hone : 0 < held f)
    (hdir : f ∉ dirs) (hheld : ∀ g, held' g + (if g = f then 1 else 0) = held g) :
    Ledger L dirs tables held' out (s.dec f) := by
  have hcount := h.count f hf
  have hother : ∀ g, g ≠ f → (s.dec f).RefCount g = s.RefCount g := fun g hg =>
    Function.update_of_ne hg ..
  have hself : (s.dec f).RefCount f = s.RefCount f - 1 := by
    simp only [State.dec, if_neg (show s.RefCount f ≠ 0 by omega), Function.update_self]
  have hfree : (s.dec f).PfnFreeList
      = if s.RefCount f = 1 then f :: s.PfnFreeList else s.PfnFreeList := by
    simp only [State.dec, if_neg (show s.RefCount f ≠ 0 by omega)]
    exact if_congr (by omega) rfl rfl
  have hnot : f ∉ s.PfnFreeList := fun hin => by
    have hzero := (h.free f hin).2.1
    omega
  have hout : f ∉ out := fun hin => by
    have hzero := h.unused f hin
    omega
  refine ⟨h.shape, ?_, fun g hg => ?_, fun g hg => ?_, fun g hg hzero => ?_, fun g hg => ?_,
    fun t ht j hj hvalid huser hw => ?_, fun d hd => ?_⟩
  · rw [hfree]
    split
    · exact List.nodup_cons.mpr ⟨hnot, h.nodup⟩
    · exact h.nodup
  · by_cases hgf : g = f
    · subst hgf
      refine ⟨hf, ?_, hout⟩
      rw [hself]
      rw [hfree] at hg
      split at hg
      · omega
      · exact absurd hg hnot
    · have hg' : g ∈ s.PfnFreeList := by
        rw [hfree] at hg
        split at hg
        · exact (List.mem_cons.mp hg).resolve_left hgf
        · exact hg
      rw [hother g hgf]
      exact h.free g hg'
  · have hgf : g ≠ f := fun heq => hout (heq ▸ hg)
    rw [hother g hgf]
    exact h.unused g hg
  · by_cases hgf : g = f
    · subst hgf
      rw [hself] at hzero
      rw [hfree, if_pos (by omega)]
      exact Or.inl (List.mem_cons_self ..)
    · rw [hother g hgf] at hzero
      refine (h.idle g hg hzero).imp (fun hin => ?_) id
      rw [hfree]
      split
      · exact List.mem_cons_of_mem f hin
      · exact hin
  · have hg' := h.count g hg
    have hgheld := hheld g
    by_cases hgf : g = f
    · subst hgf
      rw [if_pos rfl] at hgheld
      rw [hself, entry_dec]
      omega
    · rw [if_neg hgf] at hgheld
      rw [hother g hgf, entry_dec]
      omega
  · have hw' := h.exclusive t ht j hj hvalid huser hw
    have hne : (s.entry t j).PageFrameNumber ≠ f := fun heq => by
      have hpos := (h.page_managed (Or.inl ht) hj (target_eq_some.mpr ⟨hvalid, heq⟩)).2.1
      rw [heq] at hw'
      omega
    exact (hother _ hne).trans hw'
  · have hne : d ≠ f := fun heq => hdir (heq ▸ hd)
    rw [hother d hne]
    exact h.alive d hd

/-! ## The entries -/

/-- Only the frames with entries matter. -/
theorem Ledger.congr (h : Ledger L dirs tables held out s) (hfree : s'.PfnFreeList = s.PfnFreeList)
    (href : s'.RefCount = s.RefCount) (hdirs : ∀ d, d ∈ dirs ∨ d = L.globalPgdir → s'.entry d = s.entry d)
    (htables : ∀ x, x ∈ tables ∨ x ∈ L.kernel → s'.entry x = s.entry x) :
    Ledger L dirs tables held out s' where
  shape := h.shape.congr hdirs htables
  nodup := hfree ▸ h.nodup
  free f hf := by
    rw [href]
    exact h.free f (hfree ▸ hf)
  unused f hf := by
    rw [href]
    exact h.unused f hf
  idle f hf hzero := by
    rw [hfree]
    exact h.idle f hf (href ▸ hzero)
  count f hf := by
    have hrefs : refs L dirs tables s'.entry f = refs L dirs tables s.entry f :=
      refs_congr (fun y hy => hy.elim (fun hy => hdirs y (Or.inl hy)) (htables y)) f
    rw [href, h.count f hf, hrefs]
  exclusive t ht j hj := by
    rw [href, htables t (Or.inl ht)]
    exact h.exclusive t ht j hj
  alive d hd := by
    rw [href]
    exact h.alive d hd

/-- **An entry of a page table is stored**: the reference of the new page was held, and that of the
old one is held from now on. -/
theorem Ledger.storePage (h : Ledger L dirs tables held out s) (hx : x ∈ tables ∨ x ∈ L.kernel)
    (hj : j < NPTENTRIES) (hp : p = ⟨0⟩ ∨ L.Page dirs tables x p)
    (hexclusive : x ∈ tables → p.UserPriv = true → p.Writable = true →
      s.RefCount p.PageFrameNumber = 1)
    (hheld : ∀ f, held' f + (if p.target = some f then 1 else 0)
      = held f + (if (s.entry x j).target = some f then 1 else 0)) :
    Ledger L dirs tables held' out (s.setEntry x j p) := by
  refine ⟨?_, h.nodup, h.free, h.unused, h.idle, fun f hf => ?_, fun t ht k hk => ?_, h.alive⟩
  · rw [entries_setEntry]
    exact h.shape.storePage hx hp
  · have hcount := h.count f hf
    have hrefs := refs_storePage (p := p) h.shape.toDirectories hx hj f
    have hf' := hheld f
    rw [entries_setEntry]
    show s.RefCount f = _
    omega
  · intro hvalid huser hw
    rw [entries_setEntry] at hvalid huser hw ⊢
    by_cases hslot : t = x ∧ k = j
    · obtain ⟨rfl, rfl⟩ := hslot
      rw [storeEntry_self] at hvalid huser hw ⊢
      exact hexclusive ht huser hw
    · rw [storeEntry_of_ne (not_and_or.mp hslot)] at hvalid huser hw ⊢
      exact h.exclusive t ht k hk hvalid huser hw

/-- **A page table is put into a page directory**: it is empty, and its one reference was held. -/
theorem Ledger.addTable (h : Ledger L dirs tables held out s) (hd : d ∈ dirs) (hi : i < userEntries)
    (hempty : s.entry d i = ⟨0⟩) (ht : t ∈ L.managed) (hdir : t ∉ dirs) (hnew : t ∉ tables)
    (hclear : ∀ j, s.entry t j = ⟨0⟩)
    (hfresh : ∀ x, x ∈ tables ∨ x ∈ L.kernel → ∀ j < NPTENTRIES, (s.entry x j).target ≠ some t)
    (hheld : ∀ f, held' f + (if f = t then 1 else 0) = held f) :
    Ledger L dirs (insert t tables) held' out (s.setEntry d i (.make t userPerm)) := by
  have htarget : (MMPTE.make t userPerm).target = some t := target_make ht (by decide)
  have hkernel : t ∉ L.kernel := fun hin => L.kernel_notMem t hin ht
  have hne : d ≠ t := fun heq => hdir (heq ▸ hd)
  refine ⟨?_, h.nodup, h.free, h.unused, h.idle, fun f hf => ?_, fun u hu k hk => ?_, h.alive⟩
  · rw [entries_setEntry]
    exact h.shape.addTable hd hi hempty ht hdir hclear hfresh hnew
  · have hcount := h.count f hf
    have hrefs := refs_storeDir (p := .make t userPerm) L tables s.entry hd hi f
    have hf' := hheld f
    have hold : ∀ j < NPTENTRIES,
        (storeEntry s.entry d i (.make t userPerm) t j).target = none := by
      intro j _
      rw [storeEntry_of_ne (Or.inl (Ne.symm hne)), hclear j, target_zero]
    rw [entries_setEntry, refs_insertTable hdir hnew hkernel hold]
    rw [hempty, target_zero, if_neg (fun heq => by cases heq), htarget] at hrefs
    have hiff : (if some t = some f then 1 else 0) = if f = t then 1 else 0 :=
      if_congr (by rw [Option.some.injEq, eq_comm]) rfl rfl
    rw [hiff] at hrefs
    show s.RefCount f = _
    omega
  · intro hvalid huser hw
    rw [entries_setEntry] at hvalid huser hw ⊢
    have hud : u ≠ d := by
      rintro rfl
      rcases Finset.mem_insert.mp hu with rfl | hu
      · exact hdir hd
      · exact h.shape.apart u hd hu
    rw [storeEntry_of_ne (Or.inl hud)] at hvalid huser hw ⊢
    rcases Finset.mem_insert.mp hu with rfl | hu
    · rw [hclear k] at hvalid
      cases hvalid
    · exact h.exclusive u hu k hk hvalid huser hw

/-- **An empty page table is taken out of its page directory**: its reference is held from now on. -/
theorem Ledger.removeTable (h : Ledger L dirs tables held out s) (hd : d ∈ dirs)
    (hi : i < userEntries) (ht : (s.entry d i).target = some t)
    (hclear : ∀ j < NPTENTRIES, (s.entry t j).target = none)
    (hheld : ∀ f, held' f = held f + if f = t then 1 else 0) :
    Ledger L dirs (tables.erase t) held' out (s.setEntry d i ⟨0⟩) := by
  have hmem := h.shape.target_mem hd hi ht
  have hkernel : t ∉ L.kernel := fun hin => L.kernel_notMem t hin (h.shape.tables_managed t hmem)
  have hdir : t ∉ dirs := fun hin => h.shape.apart t hin hmem
  have hne : d ≠ t := fun heq => hdir (heq ▸ hd)
  refine ⟨?_, h.nodup, h.free, h.unused, h.idle, fun f hf => ?_, fun u hu k hk => ?_, h.alive⟩
  · rw [entries_setEntry]
    exact h.shape.removeTable hd hi ht
  · have hcount := h.count f hf
    have hrefs := refs_storeDir (p := ⟨0⟩) L tables s.entry hd hi f
    have hold : ∀ j < NPTENTRIES, (storeEntry s.entry d i ⟨0⟩ t j).target = none := by
      intro j hj
      rw [storeEntry_of_ne (Or.inl (Ne.symm hne)), hclear j hj]
    have hinsert := refs_insertTable hdir (Finset.notMem_erase t tables)
      hkernel hold f
    rw [Finset.insert_erase hmem] at hinsert
    rw [target_zero, if_neg (show ¬ none = some f from fun heq => by cases heq), ht] at hrefs
    have hiff : (if some t = some f then 1 else 0) = if f = t then 1 else 0 :=
      if_congr (by rw [Option.some.injEq, eq_comm]) rfl rfl
    rw [hiff] at hrefs
    rw [entries_setEntry, hheld]
    show s.RefCount f = _
    omega
  · intro hvalid huser hw
    have hu' := Finset.mem_of_mem_erase hu
    rw [entries_setEntry] at hvalid huser hw ⊢
    have hud : u ≠ d := by
      rintro rfl
      exact h.shape.apart u hd hu'
    rw [storeEntry_of_ne (Or.inl hud)] at hvalid huser hw ⊢
    exact h.exclusive u hu' k hk hvalid huser hw

/-- **A page directory is added.** -/
theorem Ledger.addDir (h : Ledger L dirs tables held out s) (hd : d ∈ L.managed) (hold : d ∉ dirs)
    (htables : d ∉ tables) (hempty : ∀ i < kernelEntry, s.entry d i = ⟨0⟩)
    (hhalf : ∀ i, KernelIndex i → s.entry d i = s.entry L.globalPgdir i)
    (hself : (s.entry d selfEntry).Valid = true ∧ (s.entry d selfEntry).PageFrameNumber = d)
    (hfresh : ∀ x ∈ tables, ∀ j < NPTENTRIES, (s.entry x j).target ≠ some d)
    (halive : s.RefCount d ≠ 0) : Ledger L (insert d dirs) tables held out s := by
  have hkernel : d ∉ L.kernel := fun hin => L.kernel_notMem d hin hd
  refine ⟨h.shape.addDir hd htables hempty hhalf hself hfresh, h.nodup, h.free, h.unused, h.idle,
    fun f hf => ?_, h.exclusive, Finset.forall_mem_insert .. |>.mpr ⟨halive, h.alive⟩⟩
  rw [h.count f hf, refs_insertDir hold htables hkernel fun i hi => ?_]
  rw [hempty i (Nat.lt_trans hi userEntries_lt.1), target_zero]

/-- **A page directory is taken away** when its user half is empty. -/
theorem Ledger.removeDir (h : Ledger L dirs tables held out s) (hd : d ∈ dirs)
    (hempty : ∀ i < userEntries, (s.entry d i).target = none) :
    Ledger L (dirs.erase d) tables held out s := by
  have hkernel : d ∉ L.kernel := fun hin => L.kernel_notMem d hin (h.shape.dirs_managed d hd)
  refine ⟨h.shape.removeDir hempty, h.nodup, h.free, h.unused, h.idle, fun f hf => ?_, h.exclusive,
    fun d' hd' => h.alive d' (Finset.mem_of_mem_erase hd')⟩
  have hinsert := refs_insertDir (Finset.notMem_erase d dirs)
    (h.shape.apart d hd) hkernel hempty f
  rw [Finset.insert_erase hd] at hinsert
  rw [h.count f hf, hinsert]

end KaushOS.Paging
