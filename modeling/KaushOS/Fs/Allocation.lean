import KaushOS.Fs.Chains

/-! # Allocation of clusters (`kern/fs/ff.c`)

The search of `create_chain` goes from the cluster behind a given one to the end of the table, and from
its beginning to the given one.

* **`scanOrder`**, **`scanOutcome`** — the clusters in this order, and the first of them that ends the search.
* **`Grown`** — the outcomes of `create_chain`.
* **`Volume.Sound.createChain`** — it fails for want of space only when no cluster is free. -/

namespace KaushOS.Fat

open LinkedChain

variable {L : FatLayout} {v v' v'' : Volume} {c c' d val fuel scl ncl n clst r : Nat} {T T' : Nat → Nat} {l : List Nat}

/-! ## The search -/

/-- **The clusters in the order of the search** from `scl` on. -/
def scanOrder (n scl : Nat) : List Nat := List.range' (scl + 1) (n - 1 - scl) ++ List.range' 2 (scl - 1)

/-- **How a search ends** that looks at the clusters of a list. -/
def scanOutcome (T : Nat → Nat) : List Nat → ScanResult
  | [] => .ends 0
  | c :: l => if T c = 0 then .found c else if T c = 1 then .ends 1 else scanOutcome T l

/-- The search looks at all clusters. -/
theorem mem_scanOrder (hpos : 1 ≤ scl) (hscl : scl < n) : c ∈ scanOrder n scl ↔ 2 ≤ c ∧ c < n := by
  rw [scanOrder, List.mem_append, List.mem_range'_1, List.mem_range'_1]
  omega

theorem scanOutcome_congr (h : ∀ c ∈ l, T' c = T c) : scanOutcome T' l = scanOutcome T l := by
  induction l with
  | nil => rfl
  | cons c l ih =>
    rw [scanOutcome, scanOutcome, h c List.mem_cons_self, ih fun x hx => h x (List.mem_cons_of_mem c hx)]

/-- **The three ends**: a free cluster, a bad one, or none. -/
theorem scanOutcome_cases (T : Nat → Nat) (l : List Nat) :
    (∃ c ∈ l, scanOutcome T l = .found c ∧ T c = 0)
      ∨ (scanOutcome T l = .ends 1 ∧ ∃ c ∈ l, T c = 1)
      ∨ (scanOutcome T l = .ends 0 ∧ ∀ c ∈ l, 2 ≤ T c) := by
  induction l with
  | nil => exact .inr (.inr ⟨rfl, fun c hc => absurd hc List.not_mem_nil⟩)
  | cons c l ih =>
    rw [scanOutcome]
    by_cases hzero : T c = 0
    · rw [if_pos hzero]
      exact .inl ⟨c, List.mem_cons_self, rfl, hzero⟩
    · by_cases hone : T c = 1
      · rw [if_neg hzero, if_pos hone]
        exact .inr (.inl ⟨rfl, c, List.mem_cons_self, hone⟩)
      · rw [if_neg hzero, if_neg hone]
        refine ih.imp ?_ (Or.imp ?_ ?_)
        · rintro ⟨x, hx, h⟩
          exact ⟨x, List.mem_cons_of_mem c hx, h⟩
        · rintro ⟨h, x, hx, hxone⟩
          exact ⟨h, x, List.mem_cons_of_mem c hx, hxone⟩
        · rintro ⟨h, hall⟩
          exact ⟨h, List.forall_mem_cons.mpr ⟨by omega, hall⟩⟩

/-- **A round of the search**, which looks at the cluster `d` before the ones in `l`. -/
theorem Volume.Sound.createScan_round (h : v.Sound) (hd : v.layout.IsCluster d)
    (hnext : (if v.fs.n_fatent ≤ ncl + 1 then 2 else ncl + 1) = d)
    (hwrap : ¬ (v.fs.n_fatent ≤ ncl + 1 ∧ scl < 2)) (hl : ∀ x ∈ l, v.layout.IsCluster x)
    (hrest : ∀ v₁ : Volume, v₁.Sound → v.Moved v₁ → v.layout.InTable v₁.fs.winsect → (d = scl → l = []) ∧ (d ≠ scl →
      ∃ v₂, Fat.createScan fuel scl d v₁ = .ok (scanOutcome v₁.fat l, v₂) ∧ v₂.Sound ∧ v₁.Moved v₂
        ∧ v₁.layout.InTable v₂.fs.winsect)) :
    ∃ v', Fat.createScan (fuel + 1) scl ncl v = .ok (scanOutcome v.fat (d :: l), v') ∧ v'.Sound ∧ v.Moved v'
      ∧ v.layout.InTable v'.fs.winsect := by
  obtain ⟨v₁, hget, hsound, hmoved, hin⟩ := h.getFat hd
  obtain ⟨hlast, hrec⟩ := hrest v₁ hsound hmoved hin
  have hmark : v.fat d ≠ 0xFFFFFFFF := by
    have hle : v.fat d ≤ v.layout.mark := FatLayout.entry_le_mark _ _ _
    have hlt := v.layout.mark_lt
    omega
  rw [Fat.createScan, if_neg hwrap, scanOutcome]
  simp only [hnext, hget, kernel_ok_bind]
  by_cases hzero : v.fat d = 0
  · rw [if_pos hzero, if_pos hzero]
    exact ⟨v₁, rfl, hsound, hmoved, hin⟩
  by_cases hone : v.fat d = 1
  · rw [if_neg hzero, if_neg hzero, if_pos (.inr hone), if_pos hone, hone]
    exact ⟨v₁, rfl, hsound, hmoved, hin⟩
  rw [if_neg hzero, if_neg hzero, if_neg (not_or.mpr ⟨hmark, hone⟩), if_neg hone]
  by_cases hscl : d = scl
  · rw [if_pos hscl, hlast hscl]
    exact ⟨v₁, rfl, hsound, hmoved, hin⟩
  · obtain ⟨v₂, hrun, hsound₂, hmoved₂, hin₂⟩ := hrec hscl
    rw [if_neg hscl, hrun]
    refine ⟨v₂, ?_, hsound₂, hmoved.trans hmoved₂, hmoved.layout ▸ hin₂⟩
    rw [scanOutcome_congr fun x hx => hmoved.fat h.wellFormed (hl x hx)]

/-- **The search from the beginning of the table** to the cluster `scl`. -/
theorem Volume.Sound.createScan_low (h : v.Sound) (hscl : scl < v.fs.n_fatent) (hncl : 1 ≤ ncl) (hlt : ncl < scl)
    (hfuel : scl - ncl < fuel) :
    ∃ v', Fat.createScan fuel scl ncl v = .ok (scanOutcome v.fat (List.range' (ncl + 1) (scl - ncl)), v')
      ∧ v'.Sound ∧ v.Moved v' ∧ v.layout.InTable v'.fs.winsect := by
  induction fuel generalizing ncl v with
  | zero => omega
  | succ fuel ih =>
    have hlist : List.range' (ncl + 1) (scl - ncl) = (ncl + 1) :: List.range' (ncl + 1 + 1) (scl - (ncl + 1)) := by
      rw [show scl - ncl = scl - (ncl + 1) + 1 by omega, List.range'_succ]
    rw [hlist]
    refine h.createScan_round ⟨by omega, Nat.lt_of_le_of_lt hlt hscl⟩ (if_neg (by omega)) (by omega) (fun x hx => ?_)
      fun v₁ hsound hmoved _ => ⟨fun heq => ?_, fun hne => ?_⟩
    · obtain ⟨hlow, hhigh⟩ := List.mem_range'_1.mp hx
      exact ⟨by omega, by show x < v.fs.n_fatent; omega⟩
    · rw [heq, Nat.sub_self]
      rfl
    · have hn : v₁.fs.n_fatent = v.fs.n_fatent := congrArg FatLayout.n_fatent hmoved.layout
      exact ih hsound (hn ▸ hscl) (by omega) (by omega) (by omega)

/-- **The search from the cluster `scl` on**, round the table. -/
theorem Volume.Sound.createScan_high (h : v.Sound) (hpos : 1 ≤ scl) (hle : scl ≤ ncl) (hncl : ncl < v.fs.n_fatent)
    (hfuel : v.fs.n_fatent - 1 - ncl + (scl - 1) < fuel) :
    ∃ v', Fat.createScan fuel scl ncl v
        = .ok (scanOutcome v.fat (List.range' (ncl + 1) (v.fs.n_fatent - 1 - ncl) ++ List.range' 2 (scl - 1)), v')
      ∧ v'.Sound ∧ v.Moved v'
      ∧ (ncl + 1 < v.fs.n_fatent ∨ 2 ≤ scl ∨ v.layout.InTable v.fs.winsect → v.layout.InTable v'.fs.winsect) := by
  induction fuel generalizing ncl v with
  | zero => omega
  | succ fuel ih =>
    have hclusters : 2 < v.fs.n_fatent := h.wellFormed.clusters
    by_cases hend : v.fs.n_fatent ≤ ncl + 1
    · rw [show v.fs.n_fatent - 1 - ncl = 0 by omega, List.range'_zero, List.nil_append]
      by_cases hone : scl < 2
      · refine ⟨v, ?_, h, .refl v, fun hor => (hor.resolve_left (by omega)).resolve_left (by omega)⟩
        rw [Fat.createScan, if_pos ⟨hend, hone⟩, show scl - 1 = 0 by omega]
        rfl
      · have hlist : List.range' 2 (scl - 1) = 2 :: List.range' 3 (scl - 2) := by
          rw [show scl - 1 = scl - 2 + 1 by omega, List.range'_succ]
        rw [hlist]
        have hl : ∀ x ∈ List.range' 3 (scl - 2), v.layout.IsCluster x := fun x hx => by
          obtain ⟨hlow, hhigh⟩ := List.mem_range'_1.mp hx
          exact ⟨by omega, by show x < v.fs.n_fatent; omega⟩
        obtain ⟨v', hrun, hsound, hmoved, hin⟩ := h.createScan_round ⟨le_rfl, hclusters⟩ (if_pos hend)
          (fun hwrap => hone hwrap.2) hl fun v₁ hsound hmoved _ =>
            have hn : v₁.fs.n_fatent = v.fs.n_fatent := congrArg FatLayout.n_fatent hmoved.layout
            ⟨fun heq => by rw [← heq]; rfl, fun hne =>
              hsound.createScan_low (by omega) (by omega) (by omega) (by omega : scl - 2 < fuel)⟩
        exact ⟨v', hrun, hsound, hmoved, fun _ => hin⟩
    · have hlist : List.range' (ncl + 1) (v.fs.n_fatent - 1 - ncl)
          = (ncl + 1) :: List.range' (ncl + 1 + 1) (v.fs.n_fatent - 1 - (ncl + 1)) := by
        rw [show v.fs.n_fatent - 1 - ncl = v.fs.n_fatent - 1 - (ncl + 1) + 1 by omega, List.range'_succ]
      rw [hlist, List.cons_append]
      generalize hrest : List.range' (ncl + 1 + 1) (v.fs.n_fatent - 1 - (ncl + 1)) ++ List.range' 2 (scl - 1) = l
      have hl : ∀ x ∈ l, v.layout.IsCluster x := fun x hx => by
        rw [← hrest, List.mem_append, List.mem_range'_1, List.mem_range'_1] at hx
        exact ⟨by omega, by show x < v.fs.n_fatent; omega⟩
      have hnext : ∀ v₁ : Volume, v₁.Sound → v.Moved v₁ → v.layout.InTable v₁.fs.winsect →
          ∃ v₂, Fat.createScan fuel scl (ncl + 1) v₁ = .ok (scanOutcome v₁.fat l, v₂) ∧ v₂.Sound ∧ v₁.Moved v₂
            ∧ v₁.layout.InTable v₂.fs.winsect := fun v₁ hsound hmoved hin => by
        have hn : v₁.fs.n_fatent = v.fs.n_fatent := congrArg FatLayout.n_fatent hmoved.layout
        obtain ⟨v₂, hrun, hsound₂, hmoved₂, hin₂⟩ :=
          ih hsound (by omega : scl ≤ ncl + 1) (by omega) (by omega)
        rw [hn, hrest] at hrun
        exact ⟨v₂, hrun, hsound₂, hmoved₂, hin₂ (.inr (.inr (hmoved.layout.symm ▸ hin)))⟩
      obtain ⟨v', hrun, hsound, hmoved, hin⟩ := h.createScan_round ⟨by omega, Nat.not_le.mp hend⟩ (if_neg hend)
        (fun hwrap => hend hwrap.1) hl fun v₁ hsound hmoved hin =>
          ⟨fun heq => absurd hle (by omega), fun _ => hnext v₁ hsound hmoved hin⟩
      exact ⟨v', hrun, hsound, hmoved, fun _ => hin⟩

/-! ## Linking -/

/-- **A cluster has been allocated** and linked to the cluster `clst`, if that is not 0. -/
structure Volume.Linked (v v' : Volume) (clst ncl : Nat) : Prop where
  kept : v.Kept v'
  last_clust : v'.fs.last_clust = ncl
  last : v'.fat ncl = v.layout.mark
  link : clst ≠ 0 → v'.fat clst = ncl
  others : ∀ x, v.layout.IsCluster x → x ≠ ncl → x ≠ clst → v'.fat x = v.fat x
  counted : v.Counted → v'.Counted
  inTable : v.layout.InTable v'.fs.winsect

/-- The mark of a last cluster is one on all volumes. -/
theorem FatLayout.mark_mod (hL : L.WellFormed) : 0x0FFFFFFF % (L.mark + 1) = L.mark := by
  have hmounted := hL.mounted
  unfold mark
  cases h : L.fs_type with
  | unmounted => exact absurd h hmounted
  | FS_FAT12 => rfl
  | FS_FAT16 => rfl
  | FS_FAT32 => rfl

/-- **The entries of the new cluster** and of the previous one are written. -/
theorem Volume.Sound.linkEntries (h : v.Sound) (hncl : ncl ∈ v.free)
    (hclst : clst = 0 ∨ v.layout.IsCluster clst ∧ v.fat clst ≠ 0) :
    ∃ v₁ v₂, Fat.putFat ncl 0x0FFFFFFF v = .ok (.FR_OK, v₁)
      ∧ linkPrevious .FR_OK clst ncl v₁ = .ok (.FR_OK, v₂) ∧ v₂.Sound ∧ v.Kept v₂ ∧ v₂.fs.free_clust = v.fs.free_clust ∧ v₂.fat ncl = v.layout.mark
      ∧ (clst ≠ 0 → v₂.fat clst = ncl)
      ∧ (∀ x, v.layout.IsCluster x → x ≠ ncl → x ≠ clst → v₂.fat x = v.fat x)
      ∧ v.layout.InTable v₂.fs.winsect := by
  obtain ⟨hcluster, hfree⟩ := mem_free.mp hncl
  have hL := h.wellFormed
  have hne : ncl ≠ clst := fun heq => hclst.elim (fun hz => absurd hcluster.1 (by omega)) fun hc => hc.2 (heq ▸ hfree)
  obtain ⟨v₁, hrun₁, hsound₁, hput₁⟩ := h.putFat hcluster 0x0FFFFFFF
  have hmark : v₁.fat ncl = v.layout.mark := hput₁.entry.trans (FatLayout.mark_mod hL)
  have hlayout := hput₁.stored.layout
  refine ⟨v₁, ?_⟩
  by_cases hzero : clst = 0
  · rw [linkPrevious, if_neg fun hnot => hnot.2 hzero]
    exact ⟨v₁, hrun₁, rfl, hsound₁, hput₁.stored.kept, hput₁.stored.free_clust, hmark, fun hnot => absurd hzero hnot,
      fun x hx hx₁ _ => hput₁.others x hx hx₁, hput₁.inTable⟩
  · obtain ⟨hc, -⟩ := hclst.resolve_left hzero
    obtain ⟨v₂, hrun₂, hsound₂, hput₂⟩ := hsound₁.putFat (hlayout.symm ▸ hc) ncl
    have hsmall : ncl % (v₁.layout.mark + 1) = ncl := by
      have hlt : ncl < v.layout.n_fatent := hcluster.2
      have hmarks := hL.marks
      rw [hlayout]
      exact Nat.mod_eq_of_lt (by omega)
    rw [linkPrevious, if_pos ⟨rfl, hzero⟩]
    refine ⟨v₂, hrun₁, hrun₂, hsound₂, hput₁.stored.kept.trans hput₂.stored.kept,
      hput₂.stored.free_clust.trans hput₁.stored.free_clust, ?_, fun _ => hput₂.entry.trans hsmall,
      fun x hx hx₁ hx₂ => ?_, hlayout ▸ hput₂.inTable⟩
    · rw [hput₂.others ncl (hlayout.symm ▸ hcluster) hne, hmark]
    · rw [hput₂.others x (hlayout.symm ▸ hx) hx₂, hput₁.others x hx hx₁]

/-- **A free cluster is marked and linked.** -/
theorem Volume.Sound.linkCluster (h : v.Sound) (hncl : ncl ∈ v.free)
    (hclst : clst = 0 ∨ v.layout.IsCluster clst ∧ v.fat clst ≠ 0) :
    ∃ v', Fat.linkCluster clst ncl v = .ok (ncl, v') ∧ v'.Sound ∧ v.Linked v' clst ncl := by
  obtain ⟨hcluster, hfree⟩ := mem_free.mp hncl
  have hL := h.wellFormed
  obtain ⟨v₁, v₂, hrun₁, hrun₂, hsound, hkept, hfree₂, hlast, hlink, hothers, hin⟩ := h.linkEntries hncl hclst
  have herase : v₂.free = v.free.erase ncl := by
    ext x
    rw [Finset.mem_erase, mem_free, mem_free, hkept.layout]
    by_cases hx : x = ncl
    · have hpos : 0 < v.layout.mark := by have := hL.marks; have := hL.clusters; omega
      rw [hx, hlast]
      exact ⟨fun hzero => absurd hzero.2 hpos.ne', fun hnot => absurd rfl hnot.1⟩
    · by_cases hx' : x = clst
      · refine ⟨fun hzero => ?_, fun hzero => ?_⟩
        · have hnot : clst ≠ 0 := by have := hzero.1.1; omega
          have := hlink hnot
          have := hcluster.1
          have := hx' ▸ hzero.2
          omega
        · have hnot : clst ≠ 0 := by have := hzero.2.1.1; omega
          exact absurd (hx' ▸ hzero.2.2) (hclst.resolve_left hnot).2
      · simp only [ne_eq, hx, not_false_eq_true, true_and]
        exact and_congr_right fun hxc => by rw [hothers x hxc hx hx']
  have hcount : v.Counted → v₂.fs.free_clust = 0xFFFFFFFF ∨ v₂.fs.free_clust = v₂.free.card + 1 := fun hv => by
    rw [hfree₂, herase, Finset.card_erase_add_one hncl]
    exact hv
  simp only [Fat.linkCluster, hrun₁, hrun₂, kernel_ok_bind, if_true]
  by_cases hknown : v₂.fs.free_clust ≠ 0xFFFFFFFF
  · rw [if_pos hknown]
    obtain ⟨hsound', hkept'⟩ := hsound.setCounts ncl (dword (v₂.fs.free_clust + (2 ^ 32 - 1))) true
    refine ⟨_, rfl, hsound', hkept.trans hkept', rfl, hlast, hlink, hothers, fun hv => ?_, hin⟩
    have heq := (hcount hv).resolve_left hknown
    have hlt := free_card_lt hsound
    right
    show dword (v₂.fs.free_clust + (2 ^ 32 - 1)) = v₂.free.card
    rw [heq, dword]
    omega
  · rw [if_neg hknown]
    obtain ⟨hsound', hkept'⟩ := hsound.setCounts ncl v₂.fs.free_clust v₂.fs.fsi_flag
    exact ⟨_, rfl, hsound', hkept.trans hkept', rfl, hlast, hlink, hothers, fun _ => .inl (not_not.mp hknown), hin⟩

/-! ## The outcomes of `create_chain` -/

/-- A cluster is to be allocated: for a new chain, or behind a last cluster. -/
def Volume.AtEnd (v : Volume) (clst : Nat) : Prop := clst = 0 ∨ v.layout.IsCluster clst ∧ v.layout.n_fatent ≤ v.fat clst

/-- The window does not matter. -/
theorem Volume.Moved.atEnd (h : v.Moved v') (hL : v.layout.WellFormed) : v'.AtEnd clst ↔ v.AtEnd clst := by
  unfold AtEnd
  rw [h.layout]
  exact or_congr_right (and_congr_right fun hc => by rw [h.fat hL hc])

/-- **What `create_chain` has returned and done**, called with `clst`. -/
inductive Volume.Grown (v v' : Volume) (clst : Nat) : Nat → Prop
  /-- The cluster has a successor. -/
  | follow (hclst : v.layout.IsCluster clst) (hnext : v.layout.IsCluster (v.fat clst)) (hmoved : v.Moved v') :
      v.Grown v' clst (v.fat clst)
  /-- No cluster is free. -/
  | full (hend : v.AtEnd clst) (hfull : ∀ c, v.layout.IsCluster c → 2 ≤ v.fat c) (hmoved : v.Moved v') :
      v.Grown v' clst 0
  /-- There is a bad entry. -/
  | bad {c : Nat} (hend : v.AtEnd clst) (hc : v.layout.IsCluster c) (hbad : v.fat c = 1) (hmoved : v.Moved v') :
      v.Grown v' clst 1
  /-- A free cluster has been allocated. -/
  | new {ncl : Nat} (hend : v.AtEnd clst) (hfree : ncl ∈ v.free) (hlinked : v.Linked v' clst ncl) :
      v.Grown v' clst ncl

/-- The window may have been moved before. -/
theorem Volume.Moved.grown {v₁ : Volume} (h : v.Moved v₁) (hL : v.layout.WellFormed) (hgrown : v₁.Grown v' clst r) :
    v.Grown v' clst r := by
  cases hgrown with
  | follow hclst hnext hmoved =>
    rw [h.layout] at hclst hnext
    rw [h.fat hL hclst] at hnext ⊢
    exact .follow hclst hnext (h.trans hmoved)
  | full hend hfull hmoved =>
    exact .full ((h.atEnd hL).mp hend) (fun c hc => h.fat hL hc ▸ hfull c (h.layout.symm ▸ hc)) (h.trans hmoved)
  | bad hend hc hbad hmoved =>
    rw [h.layout] at hc
    exact .bad ((h.atEnd hL).mp hend) hc (h.fat hL hc ▸ hbad) (h.trans hmoved)
  | new hend hfree hlinked =>
    exact .new ((h.atEnd hL).mp hend) (h.free hL ▸ hfree)
      ⟨h.stored.kept.trans hlinked.kept, hlinked.last_clust, h.layout ▸ hlinked.last, hlinked.link,
        fun x hx hx₁ hx₂ => (hlinked.others x (h.layout.symm ▸ hx) hx₁ hx₂).trans (h.fat hL hx),
        hlinked.counted ∘ h.counted hL, h.layout ▸ hlinked.inTable⟩

/-- **A cluster is looked for and linked.** -/
theorem Volume.Sound.allocateCluster (h : v.Sound) (hpos : 1 ≤ scl) (hscl : scl < v.fs.n_fatent)
    (hclst : v.AtEnd clst) :
    ∃ r v', Fat.allocateCluster clst scl v = .ok (r, v') ∧ v'.Sound ∧ v.Grown v' clst r
      ∧ v.layout.InTable v'.fs.winsect := by
  have hL := h.wellFormed
  have hclusters : 2 < v.fs.n_fatent := hL.clusters
  have hfuel : v.fs.n_fatent - 1 - scl + (scl - 1) < v.fs.n_fatent := by omega
  obtain ⟨v₁, hrun, hsound, hmoved, hin⟩ := h.createScan_high hpos le_rfl hscl hfuel
  have hin := hin (by omega)
  have hmem : ∀ c, c ∈ scanOrder v.fs.n_fatent scl ↔ v.layout.IsCluster c := fun c => mem_scanOrder hpos hscl
  have hrun : Fat.createScan v.fs.n_fatent scl scl v
      = .ok (scanOutcome v.fat (scanOrder v.fs.n_fatent scl), v₁) := hrun
  rw [Fat.allocateCluster, hrun]
  obtain ⟨c, hc, heq, hfree⟩ | ⟨heq, c, hc, hbad⟩ | ⟨heq, hfull⟩ :=
    scanOutcome_cases v.fat (scanOrder v.fs.n_fatent scl)
  · have hcluster := (hmem c).mp hc
    have hfat := hmoved.fat hL hcluster
    have hfree₁ : c ∈ v₁.free := mem_free.mpr ⟨hmoved.layout.symm ▸ hcluster, hfat.trans hfree⟩
    have hclst₁ : v₁.AtEnd clst := (hmoved.atEnd hL).mpr hclst
    obtain ⟨v', hlink, hsound', hlinked⟩ := hsound.linkCluster hfree₁ (hclst₁.imp_right fun hx =>
      ⟨hx.1, by have : 2 < v₁.layout.n_fatent := hsound.wellFormed.clusters; omega⟩)
    simp only [heq, kernel_ok_bind, hlink]
    exact ⟨c, v', rfl, hsound', hmoved.grown hL (.new hclst₁ hfree₁ hlinked), hmoved.layout ▸ hlinked.inTable⟩
  · simp only [heq, kernel_ok_bind]
    exact ⟨1, v₁, rfl, hsound, .bad hclst ((hmem c).mp hc) hbad hmoved, hin⟩
  · simp only [heq, kernel_ok_bind]
    exact ⟨0, v₁, rfl, hsound, .full hclst (fun c hc => hfull c ((hmem c).mpr hc)) hmoved, hin⟩

/-- **`create_chain` returns, and what it has done**: called for a new chain, or for a cluster of one. -/
theorem Volume.Sound.createChain (h : v.Sound) (hclst : clst = 0 ∨ v.layout.IsCluster clst ∧ 2 ≤ v.fat clst) :
    ∃ r v', Fat.createChain clst v = .ok (r, v') ∧ v'.Sound ∧ v.Grown v' clst r
      ∧ v.layout.InTable v'.fs.winsect := by
  have hL := h.wellFormed
  have hclusters : 2 < v.fs.n_fatent := hL.clusters
  rw [Fat.createChain]
  by_cases hzero : clst = 0
  · rw [if_pos hzero]
    split
    · exact h.allocateCluster le_rfl (by omega) (.inl hzero)
    · exact h.allocateCluster (by omega) (by omega) (.inl hzero)
  · obtain ⟨hc, hused⟩ := hclst.resolve_left hzero
    obtain ⟨v₁, hget, hsound, hmoved, hin⟩ := h.getFat hc
    have hn : v₁.fs.n_fatent = v.fs.n_fatent := congrArg FatLayout.n_fatent hmoved.layout
    simp only [if_neg hzero, hget, kernel_ok_bind, if_neg (Nat.not_lt.mpr hused), hn]
    by_cases hnext : v.fat clst < v.fs.n_fatent
    · rw [if_pos hnext]
      exact ⟨_, v₁, rfl, hsound, .follow hc ⟨hused, hnext⟩ hmoved, hin⟩
    · rw [if_neg hnext]
      have hlt : clst < v.fs.n_fatent := hc.2
      have hpos := hc.1
      have hend : v₁.AtEnd clst := (hmoved.atEnd hL).mpr (.inr ⟨hc, Nat.not_lt.mp hnext⟩)
      obtain ⟨r, v', hrun, hsound', hgrown, hin'⟩ := hsound.allocateCluster (by omega : 1 ≤ clst) (hn ▸ hlt) hend
      exact ⟨r, v', hrun, hsound', hmoved.grown hL hgrown, hmoved.layout ▸ hin'⟩

end KaushOS.Fat
