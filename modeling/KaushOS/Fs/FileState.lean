import KaushOS.Fs.ChainRuns
import KaushOS.Fs.File

/-! # The sectors of files (`kern/fs/ff.c`)

The bytes of a file are in the sectors of its clusters, one after the other.

* **`FatLayout.sectorAt`** — the sectors of a chain of clusters.
* **`Volume.Ready`** — the volume, for files whose clusters are among the ones in a set.
* **`DataStep`**, **`FileStep`** — what a function on one file may change, so that other files, and directories,
  stay as they are.
* **`Volume.Ready.createChain`** — the next cluster for a file. -/

namespace KaushOS.Fat

open LinkedChain WriteBack

variable {L : FatLayout} {v v' v'' : Volume} {c d k j s r place : Nat} {l l' l'' : List Nat} {S : Set Nat}

/-! ## The sectors of clusters -/

/-- The first sector of a cluster. -/
def FatLayout.sectorOf (L : FatLayout) (c : Nat) : Nat := L.database + (c - 2) * L.csize

/-- **The sectors of a cluster.** -/
def FatLayout.InCluster (L : FatLayout) (c s : Nat) : Prop := L.sectorOf c ≤ s ∧ s < L.sectorOf c + L.csize

/-- **The sector number `k` of a chain.** -/
def FatLayout.sectorAt (L : FatLayout) (l : List Nat) (k : Nat) : Nat :=
  L.sectorOf (l.getD (k / L.csize) 0) + k % L.csize

/-- A cluster ends before the end of the volume. -/
theorem FatLayout.IsCluster.sectors_le (h : L.IsCluster c) : L.sectorOf c + L.csize ≤ L.limit := by
  obtain ⟨htwo, hlt⟩ := h
  have hmul : (c - 2 + 1) * L.csize ≤ (L.n_fatent - 2) * L.csize := Nat.mul_le_mul_right _ (by omega)
  rw [Nat.succ_mul] at hmul
  unfold sectorOf limit
  omega

theorem FatLayout.InCluster.database_le (h : L.InCluster c s) : L.database ≤ s := (Nat.le_add_right _ _).trans h.1

theorem FatLayout.InCluster.lt_limit (h : L.InCluster c s) (hc : L.IsCluster c) : s < L.limit :=
  h.2.trans_le hc.sectors_le

/-- The window may be at a sector of a cluster. -/
theorem FatLayout.InCluster.windowed (h : L.InCluster c s) (hc : L.IsCluster c) (hL : L.WellFormed) : L.Windowed s :=
  windowed_of_database hL h.database_le (h.lt_limit hc)

/-- No sector of the table is in a cluster. -/
theorem FatLayout.InTable.not_inCluster (h : L.InTable s) (hL : L.WellFormed) : ¬ L.InCluster c s := fun hc => by
  have := h.2
  have := hL.table_le
  have := hc.database_le
  omega

/-- **A sector is in one cluster.** -/
theorem FatLayout.InCluster.unique (h : L.InCluster c s) (h' : L.InCluster d s) (hc : 2 ≤ c) (hd : 2 ≤ d) : c = d := by
  have hdiv : ∀ {x}, L.InCluster x s → (s - L.database) / L.csize = x - 2 := fun {x} hx => by
    have hlow := hx.1
    have hhigh := hx.2
    unfold sectorOf at hlow hhigh
    refine Nat.div_eq_of_lt_le (by omega) ?_
    rw [Nat.succ_mul]
    omega
  have := (hdiv h).symm.trans (hdiv h')
  omega

/-- **`clust2sect`** gives the first sector of a cluster. -/
theorem Volume.Sound.clust2sect (h : v.Sound) (hc : v.layout.IsCluster c) :
    Fat.clust2sect v.layout c = v.layout.sectorOf c := by
  have hL := h.wellFormed
  have hle := hc.sectors_le
  have hlimit := h.limit_le
  have hn : v.layout.n_fatent < 2 ^ 32 := by
    have := hL.marks
    have := v.layout.mark_lt
    omega
  obtain ⟨htwo, hlt⟩ := hc
  have hdown : ∀ {x : Nat}, 2 ≤ x → x < 2 ^ 32 → dword (x + (2 ^ 32 - 2)) = x - 2 := fun {x} hx hx' => by
    unfold dword
    omega
  unfold Fat.clust2sect
  rw [hdown htwo (by omega), hdown (htwo.trans hlt.le) hn, if_neg (by omega), dword_of_lt, Nat.add_comm]
  · rfl
  · unfold FatLayout.sectorOf at hle
    omega

theorem FatLayout.WellFormed.sectorOf_ne_zero (hL : L.WellFormed) : L.sectorOf c ≠ 0 := by
  have := hL.reserved
  have := hL.table_le
  unfold sectorOf
  omega

/-! ## The sectors of chains -/

/-- The cluster that a sector of a chain is in. -/
theorem FatLayout.getD_mem {p : Nat} (hp : p < l.length) : l.getD p 0 ∈ l := by
  rw [List.getD_eq_getElem?_getD, List.getElem?_eq_getElem hp, Option.getD_some]
  exact List.getElem_mem hp

/-- **The sectors of a chain are in its clusters.** -/
theorem FatLayout.sectorAt_inCluster (hL : L.WellFormed) : L.InCluster (l.getD (k / L.csize) 0) (L.sectorAt l k) :=
  ⟨Nat.le_add_right _ _, Nat.add_lt_add_left (Nat.mod_lt _ hL.csize_pos) _⟩

theorem FatLayout.div_csize_lt (hk : k < l.length * L.csize) : k / L.csize < l.length :=
  Nat.div_lt_of_lt_mul (by rwa [Nat.mul_comm])

theorem FatLayout.WellFormed.sectorAt_ne_zero (hL : L.WellFormed) : L.sectorAt l k ≠ 0 := by
  have := hL.sectorOf_ne_zero (c := l.getD (k / L.csize) 0)
  unfold sectorAt
  omega

/-- **The sectors of a chain are different.** -/
theorem FatLayout.sectorAt_inj (hL : L.WellFormed) (hnodup : l.Nodup) (hl : ∀ x ∈ l, 2 ≤ x) (hk : k < l.length * L.csize)
    (hj : j < l.length * L.csize) (heq : L.sectorAt l k = L.sectorAt l j) : k = j := by
  have hk' := div_csize_lt hk
  have hj' := div_csize_lt hj
  have hin : L.InCluster (l.getD (j / L.csize) 0) (L.sectorAt l k) := heq ▸ sectorAt_inCluster hL
  have hsame := (sectorAt_inCluster hL).unique hin (hl _ (getD_mem hk')) (hl _ (getD_mem hj'))
  have hdiv : k / L.csize = j / L.csize := by
    simp only [List.getD_eq_getElem?_getD, List.getElem?_eq_getElem hk', List.getElem?_eq_getElem hj',
      Option.getD_some] at hsame
    exact (hnodup.getElem_inj_iff).mp hsame
  have hmod : k % L.csize = j % L.csize := by
    unfold sectorAt at heq
    rw [hdiv] at heq
    omega
  rw [← Nat.div_add_mod k L.csize, hdiv, hmod, Nat.div_add_mod]

/-- The sectors of a longer chain. -/
theorem FatLayout.sectorAt_initial (h : l <+: l') (hk : k < l.length * L.csize) : L.sectorAt l' k = L.sectorAt l k := by
  obtain ⟨m, rfl⟩ := h
  unfold sectorAt
  rw [List.getD_eq_getElem?_getD, List.getElem?_append_left (div_csize_lt hk), ← List.getD_eq_getElem?_getD]

/-- What is added within a multiple. -/
theorem add_div_of_mod_lt {q b : Nat} (hin : q % b + j < b) : (q + j) / b = q / b := by
  rw [Nat.add_div (by omega), if_neg (by rw [Nat.mod_eq_of_lt (by omega : j < b)]; omega),
    Nat.div_eq_of_lt (by omega : j < b), Nat.add_zero]

/-- The sectors behind one in the same cluster. -/
theorem FatLayout.sectorAt_add (hin : k % L.csize + j < L.csize) : L.sectorAt l (k + j) = L.sectorAt l k + j := by
  have hmod := Nat.mod_add_mod k L.csize j
  rw [Nat.mod_eq_of_lt hin] at hmod
  unfold sectorAt
  rw [add_div_of_mod_lt hin, ← hmod, Nat.add_assoc]

/-! ## The volume -/

/-- **The volume is ready for files** whose clusters are in the set `S`: no entry is bad, and the window is not at
data of files. -/
structure Volume.Ready (S : Set Nat) (v : Volume) : Prop where
  sound : v.Sound
  clusters : ∀ c ∈ S, v.layout.IsCluster c
  good : ∀ c, v.layout.IsCluster c → v.fat c ≠ 1
  free : ∀ c ∈ v.free, c ∈ S
  apart : ∀ c ∈ S, ¬ v.layout.InCluster c v.fs.winsect

/-- The data of files are on the disk. -/
theorem Volume.Ready.view (h : v.Ready S) (hc : c ∈ S) (hs : v.layout.InCluster c s) : v.view s = v.disk.sector s :=
  Volume.view_of_ne fun heq => h.apart c hc (heq ▸ hs)

/-- **No data of files have changed.** -/
def Volume.SameData (S : Set Nat) (v v' : Volume) : Prop :=
  ∀ c ∈ S, ∀ s, v.layout.InCluster c s → v'.disk.sector s = v.disk.sector s

/-- What is seen outside of the tables decides about the data. -/
theorem Volume.Ready.sameData (h : v.Ready S) (h' : v'.Ready S) (hkept : v.Kept v') : v.SameData S v' := by
  intro c hc s hs
  have htables := h.sound.wellFormed.tables
  rw [← h.view hc hs, ← h'.view hc (hkept.layout ▸ hs), hkept.view s (htables.trans hs.database_le)]

/-- The window is moved to the table. -/
theorem Volume.Ready.moved (h : v.Ready S) (hsound : v'.Sound) (hmoved : v.Moved v')
    (hin : v.layout.InTable v'.fs.winsect) : v'.Ready S := by
  have hL := h.sound.wellFormed
  refine ⟨hsound, hmoved.layout.symm ▸ h.clusters, fun c hc => ?_, fun c hc => ?_, fun c hc hs => ?_⟩
  · rw [hmoved.layout] at hc
    rw [hmoved.fat hL hc]
    exact h.good c hc
  · rw [hmoved.free hL] at hc
    exact h.free c hc
  · rw [hmoved.layout] at hs
    exact hin.not_inCluster hL hs

/-! ## What a function on one file may change -/

/-- **A step of one file**, of which `l` are the clusters before and `l'` the ones after it. -/
structure DataStep (S : Set Nat) (v v' : Volume) (l l' : List Nat) : Prop where
  ready : v'.Ready S
  layout : v'.layout = v.layout
  taken : ∀ x ∈ l', x ∈ l ∨ x ∈ v.free
  left : ∀ x ∈ l, x ∉ l' → v'.fat x = 0
  fat : ∀ x, v.layout.IsCluster x → x ∉ l → x ∉ l' → v'.fat x = v.fat x
  counted : v.Counted → v'.Counted
  sectors : ∀ c ∈ S, c ∉ l' → ∀ s, v.layout.InCluster c s → v'.disk.sector s = v.disk.sector s

/-- **A step that leaves alone what is in no file.** -/
structure FileStep (S : Set Nat) (v v' : Volume) (l l' : List Nat) : Prop extends DataStep S v v' l l' where
  outside : ∀ s, v.layout.fatbase + v.layout.n_fats * v.layout.fsize ≤ s → (∀ c ∈ S, ¬ v.layout.InCluster c s) →
    v'.view s = v.view s

theorem Volume.Ready.refl_step (h : v.Ready S) (l : List Nat) : FileStep S v v l l :=
  ⟨⟨h, rfl, fun _ => .inl, fun _ hx hnot => absurd hx hnot, fun _ _ _ _ => rfl, id, fun _ _ _ _ _ => rfl⟩,
    fun _ _ _ => rfl⟩

/-- **Steps one after the other**, while the chain grows. -/
theorem DataStep.trans (h : DataStep S v v' l l') (h' : DataStep S v' v'' l' l'') (hl : ∀ x ∈ l, x ∈ l')
    (hl' : ∀ x ∈ l', x ∈ l'') : DataStep S v v'' l l'' where
  ready := h'.ready
  layout := h'.layout.trans h.layout
  taken x hx := by
    rcases h'.taken x hx with hx | hx
    · exact h.taken x hx
    · obtain ⟨hcluster, hzero⟩ := Volume.mem_free.mp hx
      by_cases hold : x ∈ l'
      · exact h.taken x hold
      · rw [h.layout] at hcluster
        refine .inr (Volume.mem_free.mpr ⟨hcluster, ?_⟩)
        rw [← h.fat x hcluster (fun hxl => hold (hl x hxl)) hold, hzero]
  left x hx hnot := absurd (hl' x (hl x hx)) hnot
  fat x hx hnot hnot' := by
    have hmid : x ∉ l' := fun hmem => hnot' (hl' x hmem)
    rw [h'.fat x (h.layout.symm ▸ hx) hmid hnot', h.fat x hx hnot hmid]
  counted := h'.counted ∘ h.counted
  sectors c hc hnot s hs := by
    rw [h'.sectors c hc hnot s (h.layout.symm ▸ hs), h.sectors c hc (fun hmem => hnot (hl' c hmem)) s hs]

theorem FileStep.trans (h : FileStep S v v' l l') (h' : FileStep S v' v'' l' l'') (hl : ∀ x ∈ l, x ∈ l')
    (hl' : ∀ x ∈ l', x ∈ l'') : FileStep S v v'' l l'' where
  toDataStep := h.toDataStep.trans h'.toDataStep hl hl'
  outside s hs hc := by rw [h'.outside s (h.layout.symm ▸ hs) (h.layout.symm ▸ hc), h.outside s hs hc]

/-- A chain that grows takes clusters that are free. -/
theorem DataStep.free_of_longer (h : DataStep S v v' l l') (hl' : v'.HasChain l') (hsub : ∀ x ∈ l, x ∈ l') :
    v'.free ⊆ v.free := by
  intro x hx
  have hnot : x ∉ l' := fun hmem => hl'.not_free hmem hx
  obtain ⟨hcluster, hzero⟩ := Volume.mem_free.mp hx
  rw [h.layout] at hcluster
  exact Volume.mem_free.mpr ⟨hcluster, h.fat x hcluster (fun hmem => hnot (hsub x hmem)) hnot ▸ hzero⟩

/-- A chain that becomes shorter leaves the clusters that are free. -/
theorem DataStep.free_of_shorter (h : DataStep S v v' l l') (hl : v.HasChain l) (hsub : ∀ x ∈ l', x ∈ l) :
    v.free ⊆ v'.free := by
  intro x hx
  have hnot : x ∉ l := fun hmem => hl.not_free hmem hx
  obtain ⟨hcluster, hzero⟩ := Volume.mem_free.mp hx
  refine Volume.mem_free.mpr ⟨h.layout.symm ▸ hcluster, ?_⟩
  rw [h.fat x hcluster hnot fun hmem => hnot (hsub x hmem), hzero]

/-- The free clusters stay, where the chain of the file does. -/
theorem DataStep.free_same (h : DataStep S v v' l l) (hl : v.HasChain l) (hl' : v'.HasChain l) : v'.free = v.free :=
  (h.free_of_longer hl' fun _ hx => hx).antisymm (h.free_of_shorter hl fun _ hx => hx)

/-- The window has been moved to the table. -/
theorem Volume.Ready.moved_step (h : v.Ready S) (hsound : v'.Sound) (hmoved : v.Moved v')
    (hin : v.layout.InTable v'.fs.winsect) (l : List Nat) : FileStep S v v' l l := by
  have hL := h.sound.wellFormed
  have hready := h.moved hsound hmoved hin
  exact ⟨⟨hready, hmoved.layout, fun _ => .inl, fun _ hx hnot => absurd hx hnot, fun x hx _ _ => hmoved.fat hL hx,
    hmoved.counted hL, fun c hc _ s hs => h.sameData hready hmoved.stored.kept c hc s hs⟩,
    fun s hs _ => hmoved.stored.view s hs⟩

/-- **Sectors of the file are written** to the disk, past the window. -/
theorem Volume.Ready.disk_step (h : v.Ready S) {disk : Disk} (hsame : v.disk.Same disk) (hl : ∀ c ∈ l, c ∈ S)
    (hothers : ∀ s, (∀ c ∈ l, ¬ v.layout.InCluster c s) → disk.sector s = v.disk.sector s) :
    FileStep S v { v with disk } l l ∧ ∀ x, v.layout.IsCluster x → Volume.fat { v with disk } x = v.fat x := by
  have hL := h.sound.wellFormed
  have hout : ∀ s, s < v.layout.database → disk.sector s = v.disk.sector s := fun s hs =>
    hothers s fun c _ hin => absurd hin.database_le (Nat.not_le.mpr hs)
  have hwin : disk.sector v.fs.winsect = v.disk.sector v.fs.winsect :=
    hothers _ fun c hc => h.apart c (hl c hc)
  have hview : ∀ s, s ≠ 0 → disk.sector s = v.disk.sector s → Volume.view { v with disk } s = v.view s := fun s hzero hs => by
    by_cases heq : s = v.fs.winsect
    · rw [heq] at hzero ⊢
      rw [Volume.view_winsect hzero]
      exact Volume.view_winsect (v := { v with disk }) hzero
    · rw [Volume.view_of_ne heq, ← hs]
      exact Volume.view_of_ne (v := { v with disk }) heq
  have hfat : ∀ x, v.layout.IsCluster x → Volume.fat { v with disk } x = v.fat x := fun x hx => by
    refine FatLayout.entry_congr hx fun i hi => ?_
    have hin := hL.inTable hi
    have hbyte := hview _ ((hin.windowed hL).ne_zero hL) (hout _ (hin.2.trans_le hL.table_le))
    exact congrArg (fun f : Sector => (f (i % 512)).toNat) hbyte
  have hfree : Volume.free { v with disk } = v.free := by
    ext x
    rw [Volume.mem_free, Volume.mem_free]
    exact and_congr_right fun hx => by rw [hfat x hx]
  have hsound : Volume.Sound { v with disk } :=
    ⟨hL, hsame.1.trans h.sound.is_ata, fun s hs => (h.sound.answers s hs).same hsame, h.sound.window, h.sound.dirty,
      fun hclean k hk => by
        have hheld := h.sound.coherent hclean k hk
        have hkey : (if v.fs.winsect = 0 then none else some v.fs.winsect) = some k := hk
        split at hkey
        · cases hkey
        · cases hkey
          exact hwin.trans hheld⟩
  have hgood : ∀ c, v.layout.IsCluster c → Volume.fat { v with disk } c ≠ 1 := fun c hc => by
    rw [hfat c hc]
    exact h.good c hc
  have hready : Volume.Ready S { v with disk } :=
    ⟨hsound, h.clusters, hgood, fun c hc => h.free c (hfree ▸ hc), h.apart⟩
  refine ⟨⟨⟨hready, rfl, fun _ => .inl, fun _ hx hnot => absurd hx hnot, fun x hx _ _ => hfat x hx, fun hv => ?_,
    fun c hc hnot s hs => hothers s fun d hd hin => ?_⟩, fun s hs hc => hview s ?_ (hothers s fun d hd => hc d (hl d hd))⟩,
    hfat⟩
  · rw [Volume.Counted, hfree]
    exact hv
  · exact hnot (hin.unique hs (h.clusters d (hl d hd)).1 (h.clusters c hc).1 ▸ hd)
  · have := hL.reserved
    omega

/-! ## Clusters for a file -/

/-- A cluster of `S` that is not free is not among the numbers that are returned for errors. -/
theorem Volume.Ready.cluster_lt (h : v.Ready S) (hc : c ∈ S) : 2 ≤ c ∧ c < v.layout.n_fatent ∧ c < 2 ^ 28 := by
  obtain ⟨htwo, hlt⟩ := h.clusters c hc
  have := h.sound.wellFormed.marks
  have := v.layout.mark_lt
  exact ⟨htwo, hlt, by omega⟩

/-- **A cluster has been allocated** for the end of a chain. -/
theorem Volume.Ready.linked_step (h : v.Ready S) (hsound : v'.Sound) (hlinked : v.Linked v' (l.getLast?.getD 0) r)
    (hfree : r ∈ v.free) : FileStep S v v' l (l ++ [r]) ∧ v.SameData S v' := by
  have hL := h.sound.wellFormed
  have hr := h.clusters r (h.free r hfree)
  have hmarks := hL.marks
  have hclusters := hL.clusters
  have hlast : ∀ x, x ∉ l → 2 ≤ x → x ≠ l.getLast?.getD 0 := fun x hx htwo heq => by
    cases hlast : l.getLast? with
    | none =>
      rw [hlast] at heq
      exact absurd htwo (heq ▸ by decide)
    | some z =>
      rw [hlast] at heq
      obtain rfl : x = z := heq
      exact hx (List.mem_of_getLast? hlast)
  have hfat : ∀ x, v.layout.IsCluster x → x ∉ l → x ∉ l ++ [r] → v'.fat x = v.fat x := fun x hx hnot hnew =>
    hlinked.others x hx (fun heq => hnew (List.mem_append_right l (List.mem_singleton.mpr heq))) (hlast x hnot hx.1)
  have hmark : v'.fat r ≠ 0 ∧ v'.fat r ≠ 1 := by
    rw [hlinked.last]
    omega
  have hready : v'.Ready S := by
    refine ⟨hsound, hlinked.kept.layout.symm ▸ h.clusters, fun c hc => ?_, fun c hc => ?_, fun c hc hs => ?_⟩
    · rw [hlinked.kept.layout] at hc
      by_cases hcr : c = r
      · exact hcr ▸ hmark.2
      · by_cases hcl : c = l.getLast?.getD 0
        · rw [hcl, hlinked.link fun hzero => absurd hc.1 (by omega)]
          have := hr.1
          omega
        · rw [hlinked.others c hc hcr hcl]
          exact h.good c hc
    · obtain ⟨hcluster, hzero⟩ := Volume.mem_free.mp hc
      rw [hlinked.kept.layout] at hcluster
      by_cases hcr : c = r
      · exact absurd (hcr ▸ hzero) hmark.1
      · by_cases hcl : c = l.getLast?.getD 0
        · have hlink := hlinked.link fun heq => absurd hcluster.1 (by omega)
          rw [← hcl, hzero] at hlink
          have := hr.1
          omega
        · exact h.free c (Volume.mem_free.mpr ⟨hcluster, hlinked.others c hcluster hcr hcl ▸ hzero⟩)
    · rw [hlinked.kept.layout] at hs
      exact hlinked.inTable.not_inCluster hL hs
  have hsame := h.sameData hready hlinked.kept
  refine ⟨⟨⟨hready, hlinked.kept.layout, fun x hx => ?_, fun x hx hnot => ?_, hfat, hlinked.counted,
    fun c hc _ s hs => hsame c hc s hs⟩, fun s hs _ => hlinked.kept.view s hs⟩, hsame⟩
  · rcases List.mem_append.mp hx with hx | hx
    · exact .inl hx
    · exact .inr (List.mem_singleton.mp hx ▸ hfree)
  · exact absurd (List.mem_append_left _ hx) hnot

/-- **`get_fat` for a file** gives the next cluster of its chain. -/
theorem Volume.Ready.getFat (h : v.Ready S) (hl : v.HasChain l) (hlt : k < l.length) (hk : k + 1 < l.length) :
    ∃ v', Fat.getFat l[k] v = .ok (l[k + 1], v') ∧ FileStep S v v' l l ∧ v.SameData S v' ∧ v'.HasChain l := by
  obtain ⟨v', hrun, hsound, hmoved, hin⟩ := h.sound.getFat (hl.used _ (List.getElem_mem hlt)).1
  rw [hl.fat_getElem hk] at hrun
  exact ⟨v', hrun, h.moved_step hsound hmoved hin l, h.sameData (h.moved hsound hmoved hin) hmoved.stored.kept,
    hl.congr hmoved.layout fun x hx => hmoved.fat h.sound.wellFormed (hl.used x hx).1⟩

/-- **`create_chain` for a file**: it gives the cluster at the place `place` of the chain, which is the next one of the
cluster `c`, or a new one for an empty chain; or no cluster is free. -/
theorem Volume.Ready.createChain (h : v.Ready S) (hl : v.HasChain l) (howned : ∀ x ∈ l, x ∈ S)
    (hplace : l = [] ∧ place = 0 ∧ c = 0 ∨ ∃ k, place = k + 1 ∧ l[k]? = some c) :
    ∃ r v' l', Fat.createChain c v = .ok (r, v') ∧ FileStep S v v' l l' ∧ v.SameData S v' ∧ v'.HasChain l'
      ∧ l <+: l' ∧ (r = 0 ∧ l' = l ∧ place = l.length ∧ v'.free = ∅ ∨ r ∈ S ∧ l'[place]? = some r) := by
  have hL := h.sound.wellFormed
  have hclst : c = 0 ∨ v.layout.IsCluster c ∧ 2 ≤ v.fat c := by
    rcases hplace with ⟨-, -, hc⟩ | ⟨k, -, hc⟩
    · exact .inl hc
    · exact .inr (hl.used c (List.mem_of_getElem? hc))
  obtain ⟨r, v', hrun, hsound, hgrown, hin⟩ := h.sound.createChain hclst
  by_cases hend : place = l.length
  · have hlast : l.getLast?.getD 0 = c := by
      rcases hplace with ⟨rfl, -, rfl⟩ | ⟨k, rfl, hc⟩
      · rfl
      · rw [List.getLast?_eq_getElem?, ← hend, Nat.add_sub_cancel, hc, Option.getD_some]
    rw [← hlast] at hgrown
    obtain ⟨rfl, hfree, hmoved⟩ | ⟨-, ⟨x, hx, hone⟩, -⟩ | ⟨hfree, hlinked, hchain⟩ := hgrown.hasChain hl hL
    · have hready := h.moved hsound hmoved hin
      exact ⟨0, v', l, hrun, h.moved_step hsound hmoved hin l, h.sameData hready hmoved.stored.kept,
        hl.congr hmoved.layout fun x hx => hmoved.fat hL (hl.used x hx).1, List.prefix_rfl,
        .inl ⟨rfl, rfl, hend, (hmoved.free hL).trans hfree⟩⟩
    · exact absurd hone (h.good x hx)
    · obtain ⟨hstep, hsame⟩ := h.linked_step hsound hlinked hfree
      refine ⟨r, v', l ++ [r], hrun, hstep, hsame, hchain, List.prefix_append l [r], .inr ⟨h.free r hfree, ?_⟩⟩
      rw [hend, List.getElem?_append_right le_rfl, Nat.sub_self, List.getElem?_cons_zero]
  · obtain ⟨k, rfl, hc⟩ := hplace.resolve_left fun hnil => hend (by rw [hnil.1, hnil.2.1]; rfl)
    obtain ⟨hk, rfl⟩ := List.getElem?_eq_some_iff.mp hc
    have hk' : k + 1 < l.length := by omega
    have hnext : v.fat l[k] = l[k + 1] := hl.fat_getElem hk'
    have hnot : ¬ v.AtEnd l[k] := fun hend => by
      have hused := (hl.used _ (List.getElem_mem hk)).1.1
      have hlt := (hl.used _ (List.getElem_mem hk')).1.2
      rcases hend with hzero | ⟨-, hle⟩
      · omega
      · omega
    generalize l[k] = z at *
    cases hgrown with
    | follow _ _ hmoved =>
      exact ⟨_, v', l, hrun, h.moved_step hsound hmoved hin l,
        h.sameData (h.moved hsound hmoved hin) hmoved.stored.kept,
        hl.congr hmoved.layout fun x hx => hmoved.fat hL (hl.used x hx).1, List.prefix_rfl,
        .inr ⟨hnext ▸ howned _ (List.getElem_mem hk'), by rw [hnext, List.getElem?_eq_getElem hk']⟩⟩
    | full hend _ _ => exact absurd hend hnot
    | bad hend _ _ _ => exact absurd hend hnot
    | new hend _ _ => exact absurd hend hnot

end KaushOS.Fat
