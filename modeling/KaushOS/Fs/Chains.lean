import KaushOS.Fs.Table
import KaushOS.Library.LinkedChains
import Mathlib.Data.Finset.Card
import Mathlib.Data.List.Range

/-! # Cluster chains (`kern/fs/ff.c`)

The entries of the table link clusters to chains. A chain is freed from a cluster on, and a cluster is
found for a new chain or for the end of one by a search that goes round the table.

* **`removeChain`**, **`createChain`** — the functions.
* **`FatLayout.next`** — the links of a table.
* **`Volume.Sound.removeChain`** — what is freed, also where the table is damaged.
* **`Volume.Sound.createScan`** — what the search finds. -/

namespace KaushOS.Fat

open LinkedChain

/-! ## The functions -/

/-- The number of free clusters, where it is known, counts one more. -/
def countFreed (v : Volume) : Volume :=
  if v.fs.free_clust ≠ 0xFFFFFFFF then
    { v with fs := { v.fs with free_clust := dword (v.fs.free_clust + 1), fsi_flag := true } }
  else v

/-- The loop of `remove_chain`. -/
def removeLoop : Nat → Nat → Volume → Kernel (FRESULT × Volume)
  | 0, _, _ => .error .endlessLoop
  | fuel + 1, clst, v =>
    if v.fs.n_fatent ≤ clst then .ok (.FR_OK, v)
    else do
      let (nxt, v) ← getFat clst v
      if nxt = 0 then return (.FR_OK, v)
      else if nxt = 1 then return (.FR_INT_ERR, v)
      else if nxt = 0xFFFFFFFF then return (.FR_DISK_ERR, v)
      else
        let (res, v) ← putFat clst 0 v
        if res ≠ .FR_OK then return (res, v)
        else removeLoop fuel nxt (countFreed v)

/-- **`remove_chain(fs, clst)`.** -/
def removeChain (clst : Nat) (v : Volume) : Kernel (FRESULT × Volume) :=
  if clst < 2 ∨ v.fs.n_fatent ≤ clst then .ok (.FR_INT_ERR, v) else removeLoop v.fs.n_fatent clst v

/-- **How the search of `create_chain` ends**: with a free cluster, or with what is returned. -/
inductive ScanResult
  | found (ncl : Nat)
  | ends (code : Nat)
  deriving DecidableEq, Repr

/-- The loop of `create_chain`. -/
def createScan : Nat → Nat → Nat → Volume → Kernel (ScanResult × Volume)
  | 0, _, _, _ => .error .endlessLoop
  | fuel + 1, scl, ncl, v =>
    if v.fs.n_fatent ≤ ncl + 1 ∧ scl < 2 then .ok (.ends 0, v)
    else do
      let ncl := if v.fs.n_fatent ≤ ncl + 1 then 2 else ncl + 1
      let (cs, v) ← getFat ncl v
      if cs = 0 then return (.found ncl, v)
      else if cs = 0xFFFFFFFF ∨ cs = 1 then return (.ends cs, v)
      else if ncl = scl then return (.ends 0, v)
      else createScan fuel scl ncl v

/-- The new cluster is linked to the previous one, if there is one and no error. -/
def linkPrevious (res : FRESULT) (clst ncl : Nat) (v : Volume) : Kernel (FRESULT × Volume) :=
  if res = .FR_OK ∧ clst ≠ 0 then putFat clst ncl v else .ok (res, v)

/-- The end of `create_chain`: the new cluster is marked as a last one and linked to the previous one. -/
def linkCluster (clst ncl : Nat) (v : Volume) : Kernel (Nat × Volume) := do
  let (res, v) ← putFat ncl 0x0FFFFFFF v
  let (res, v) ← linkPrevious res clst ncl v
  if res = .FR_OK then
    let v : Volume := { v with fs := { v.fs with last_clust := ncl } }
    if v.fs.free_clust ≠ 0xFFFFFFFF then
      return (ncl, { v with fs := { v.fs with free_clust := dword (v.fs.free_clust + (2 ^ 32 - 1)), fsi_flag := true } })
    else return (ncl, v)
  else return (if res = .FR_DISK_ERR then 0xFFFFFFFF else 1, v)

/-- The search of `create_chain` from the cluster `scl` on, and its end. -/
def allocateCluster (clst scl : Nat) (v : Volume) : Kernel (Nat × Volume) := do
  let (result, v) ← createScan v.fs.n_fatent scl scl v
  match result with
  | .ends code => return (code, v)
  | .found ncl => linkCluster clst ncl v

/-- **`create_chain(fs, clst)`.** -/
def createChain (clst : Nat) (v : Volume) : Kernel (Nat × Volume) := do
  if clst = 0 then
    allocateCluster clst (if v.fs.last_clust = 0 ∨ v.fs.n_fatent ≤ v.fs.last_clust then 1 else v.fs.last_clust) v
  else
    let (cs, v) ← getFat clst v
    if cs < 2 then return (1, v)
    else if cs < v.fs.n_fatent then return (cs, v)
    else allocateCluster clst clst v

/-! ## Links -/

/-- **The link of a cluster**; a cluster that is free, bad or the last one has none. -/
def FatLayout.next (L : FatLayout) (T : Nat → Nat) (c : Nat) : Option Nat :=
  if L.IsCluster c ∧ L.IsCluster (T c) then some (T c) else none

variable {L : FatLayout} {v v' v'' : Volume} {c c' d val fuel scl ncl : Nat} {T T' : Nat → Nat}

theorem FatLayout.next_eq_some : L.next T c = some d ↔ L.IsCluster c ∧ L.IsCluster d ∧ T c = d := by
  unfold next
  split
  · rename_i h
    constructor
    · rintro hd
      cases hd
      exact ⟨h.1, h.2, rfl⟩
    · rintro ⟨-, -, rfl⟩
      rfl
  · rename_i h
    refine ⟨fun hd => (Option.some_ne_none d hd.symm).elim, ?_⟩
    rintro ⟨hc, hd, rfl⟩
    exact absurd ⟨hc, hd⟩ h

theorem FatLayout.next_eq_none (hc : L.IsCluster c) : L.next T c = none ↔ ¬ L.IsCluster (T c) := by
  unfold next
  split
  · rename_i h
    simp [h.2]
  · rename_i h
    simpa using fun hd => h ⟨hc, hd⟩

/-- What a cluster links to is a cluster, and so is all that it reaches. -/
theorem FatLayout.reach_cluster (h : Reach (L.next T) c d) (hc : L.IsCluster c) : L.IsCluster d := by
  induction h with
  | refl => exact hc
  | tail _ hlink _ => exact (FatLayout.next_eq_some.mp hlink).2.1

/-- The links of tables that agree. -/
theorem FatLayout.next_congr (h : L.IsCluster c → T' c = T c) : L.next T' c = L.next T c := by
  unfold next
  by_cases hc : L.IsCluster c
  · rw [h hc]
  · rw [if_neg fun hcd => hc hcd.1, if_neg fun hcd => hc hcd.1]

/-- **An entry is cleared**, and its link is gone. -/
theorem FatLayout.next_clear (hclear : T' c = 0) (hsame : ∀ x, L.IsCluster x → x ≠ c → T' x = T x) :
    L.next T' = Function.update (L.next T) c none := by
  funext x
  by_cases hx : x = c
  · rw [hx, Function.update_self, FatLayout.next, hclear, if_neg fun h => absurd h.2.1 (by decide)]
  · rw [Function.update_of_ne hx]
    exact next_congr fun hcluster => hsame x hcluster hx

/-- **The clusters that the links lead to** from a value on; from one that is no cluster they lead nowhere. -/
def FatLayout.Led (L : FatLayout) (T : Nat → Nat) (c x : Nat) : Prop := L.IsCluster c ∧ Reach (L.next T) c x

/-- What is led to is a cluster. -/
theorem FatLayout.Led.isCluster {x : Nat} (h : L.Led T c x) : L.IsCluster x := reach_cluster h.2 h.1

/-- From the last cluster the links lead nowhere else. -/
theorem FatLayout.led_last {x : Nat} (hc : L.IsCluster c) (hend : ¬ L.IsCluster (T c)) : L.Led T c x ↔ x = c := by
  rw [Led, reach_last ((next_eq_none hc).mpr hend), and_iff_right hc]

/-- **Where an entry is cleared**, the links from its cluster on lead to that cluster, and to what they lead to from
the next one on without it. -/
theorem FatLayout.led_clear {x : Nat} (hc : L.IsCluster c) (hclear : T' c = 0)
    (hsame : ∀ y, L.IsCluster y → y ≠ c → T' y = T y) : L.Led T c x ↔ x = c ∨ L.Led T' (T c) x := by
  by_cases hd : L.IsCluster (T c)
  · rw [Led, Led, next_clear hclear hsame, reach_cut (next_eq_some.mpr ⟨hc, hd, rfl⟩), and_iff_right hc,
      and_iff_right hd]
  · rw [led_last hc hd, Led]
    exact ⟨.inl, fun h => h.resolve_right fun h => hd h.1⟩

/-! ## What is kept -/

/-- **Nothing but the tables has changed.** -/
structure Volume.Kept (v v' : Volume) : Prop where
  layout : v'.layout = v.layout
  disk : v.disk.Same v'.disk
  view : ∀ s, v.layout.fatbase + v.layout.n_fats * v.layout.fsize ≤ s → v'.view s = v.view s
  mirrored : v.Mirrored → v'.Mirrored

theorem Volume.Kept.refl (v : Volume) : v.Kept v := ⟨rfl, .refl _, fun _ _ => rfl, id⟩

theorem Volume.Kept.trans (h : v.Kept v') (h' : v'.Kept v'') : v.Kept v'' where
  layout := h'.layout.trans h.layout
  disk := h.disk.trans h'.disk
  view s hs := (h'.view s (h.layout.symm ▸ hs)).trans (h.view s hs)
  mirrored := h'.mirrored ∘ h.mirrored

theorem Volume.Stored.kept (h : v.Stored v') : v.Kept v' := ⟨h.layout, h.disk, h.view, h.mirrored⟩

/-- The same volume with other numbers of clusters. -/
theorem Volume.Sound.setCounts (h : v.Sound) (last_clust free_clust : Nat) (fsi_flag : Bool) :
    Volume.Sound { v with fs := { v.fs with last_clust, free_clust, fsi_flag } }
      ∧ v.Kept { v with fs := { v.fs with last_clust, free_clust, fsi_flag } } :=
  ⟨⟨h.wellFormed, h.is_ata, h.answers, h.window, h.dirty, h.coherent⟩, rfl, .refl _, fun _ _ => rfl, id⟩

/-! ## Removing -/

/-- The clusters that are free. -/
def Volume.free (v : Volume) : Finset Nat := (Finset.range v.fs.n_fatent).filter fun c => 2 ≤ c ∧ v.fat c = 0

theorem Volume.mem_free : c ∈ v.free ↔ v.layout.IsCluster c ∧ v.fat c = 0 := by
  rw [free, Finset.mem_filter, Finset.mem_range]
  exact ⟨fun h => ⟨⟨h.2.1, h.1⟩, h.2.2⟩, fun h => ⟨h.1.2, h.1.1, h.2⟩⟩

/-- **The number of free clusters is right**, where it is known. -/
def Volume.Counted (v : Volume) : Prop := v.fs.free_clust = 0xFFFFFFFF ∨ v.fs.free_clust = v.free.card

/-- The clusters that are in use. -/
def Volume.used (v : Volume) : Finset Nat := (Finset.range v.fs.n_fatent).filter fun c => 2 ≤ c ∧ v.fat c ≠ 0

theorem Volume.mem_used : c ∈ v.used ↔ v.layout.IsCluster c ∧ v.fat c ≠ 0 := by
  rw [used, Finset.mem_filter, Finset.mem_range]
  exact ⟨fun h => ⟨⟨h.2.1, h.1⟩, h.2.2⟩, fun h => ⟨h.1.2, h.1.1, h.2⟩⟩

theorem Volume.free_card_lt (h : v.Sound) : v.free.card < 2 ^ 28 := by
  have hcard : v.free.card ≤ v.fs.n_fatent := (Finset.card_filter_le _ _).trans_eq (Finset.card_range _)
  have hmarks : v.fs.n_fatent ≤ v.layout.mark := h.wellFormed.marks
  have hlt := v.layout.mark_lt
  omega

/-- **A cluster is freed**, and counted. -/
theorem Volume.Sound.freeCluster (h : v.Sound) (hc : v.layout.IsCluster c) (hused : v.fat c ≠ 0) :
    ∃ v₁, Fat.putFat c 0 v = .ok (.FR_OK, v₁) ∧ (countFreed v₁).Sound ∧ v.Kept (countFreed v₁)
      ∧ (countFreed v₁).fs.last_clust = v.fs.last_clust ∧ (countFreed v₁).fat c = 0
      ∧ (∀ x, v.layout.IsCluster x → x ≠ c → (countFreed v₁).fat x = v.fat x)
      ∧ (v.Counted → (countFreed v₁).Counted) ∧ v.layout.InTable (countFreed v₁).fs.winsect := by
  obtain ⟨v₁, hrun, hsound, hput⟩ := h.putFat hc 0
  have hzero : v₁.fat c = 0 := by rw [hput.entry, Nat.zero_mod]
  have hcounted : v.Counted → v₁.fs.free_clust = 0xFFFFFFFF ∨ v₁.fs.free_clust + 1 = v₁.free.card := by
    have hfree : v₁.free = insert c v.free := by
      ext x
      rw [Finset.mem_insert, mem_free, mem_free, hput.stored.layout]
      by_cases hx : x = c
      · subst hx
        simp [hc, hzero]
      · simp only [hx, false_or]
        exact and_congr_right fun hxc => by rw [hput.others x hxc hx]
    have hnot : c ∉ v.free := fun hmem => hused (mem_free.mp hmem).2
    rw [hfree, Finset.card_insert_of_notMem hnot, hput.stored.free_clust]
    exact Or.imp_right fun heq => by rw [heq]
  refine ⟨v₁, hrun, ?_⟩
  by_cases hknown : v₁.fs.free_clust ≠ 0xFFFFFFFF
  · rw [countFreed, if_pos hknown]
    obtain ⟨hsound', hkept'⟩ := hsound.setCounts v₁.fs.last_clust (dword (v₁.fs.free_clust + 1)) true
    refine ⟨hsound', hput.stored.kept.trans hkept', hput.stored.last_clust, hzero, hput.others, fun hv => ?_,
      hput.inTable⟩
    have heq := (hcounted hv).resolve_left hknown
    have hlt := free_card_lt hsound
    right
    show dword (v₁.fs.free_clust + 1) = _
    rw [dword_of_lt (by omega), heq]
    rfl
  · rw [countFreed, if_neg hknown]
    exact ⟨hsound, hput.stored.kept, hput.stored.last_clust, hzero, hput.others,
      fun _ => .inl (not_not.mp hknown), hput.inTable⟩

/-- **What freeing from a cluster on has done**: `l` are the clusters that have been freed. -/
structure Volume.Removed (v v' : Volume) (clst : Nat) (res : FRESULT) (l : List Nat) : Prop where
  kept : v.Kept v'
  last_clust : v'.fs.last_clust = v.fs.last_clust
  nodup : l.Nodup
  mem : ∀ x, x ∈ l ↔ v.layout.Led v.fat clst x ∧ 2 ≤ v.fat x
  freed : ∀ x ∈ l, v'.fat x = 0
  others : ∀ x, v.layout.IsCluster x → x ∉ l → v'.fat x = v.fat x
  res : res = .FR_INT_ERR ∧ (∃ x, v.layout.Led v.fat clst x ∧ v.fat x = 1)
    ∨ res = .FR_OK ∧ ∀ x, v.layout.Led v.fat clst x → v.fat x ≠ 1
  counted : v.Counted → v'.Counted

/-- The window does not matter to the free clusters. -/
theorem Volume.Moved.free (h : v.Moved v') (hL : v.layout.WellFormed) : v'.free = v.free := by
  ext x
  rw [mem_free, mem_free, h.layout]
  exact and_congr_right fun hx => by rw [h.fat hL hx]

theorem Volume.Moved.counted (h : v.Moved v') (hL : v.layout.WellFormed) (hv : v.Counted) : v'.Counted := by
  rw [Counted, h.free_clust, h.free hL]
  exact hv

/-- Nothing is freed. -/
theorem Volume.Moved.removed {res : FRESULT} (h : v.Moved v') (hL : v.layout.WellFormed)
    (hled : ∀ x, v.layout.Led v.fat c x → v.fat x < 2)
    (hres : res = .FR_INT_ERR ∧ (∃ x, v.layout.Led v.fat c x ∧ v.fat x = 1)
      ∨ res = .FR_OK ∧ ∀ x, v.layout.Led v.fat c x → v.fat x ≠ 1) : v.Removed v' c res [] where
  kept := h.stored.kept
  last_clust := h.last_clust
  nodup := .nil
  mem _ := ⟨fun hx => absurd hx List.not_mem_nil, fun hx => absurd (hled _ hx.1) (Nat.not_lt.mpr hx.2)⟩
  freed _ hx := absurd hx List.not_mem_nil
  others _ hx _ := h.fat hL hx
  res := hres
  counted := h.counted hL

/-- **A cluster is freed before the other ones.** -/
theorem Volume.Removed.cons {v₃ : Volume} {res : FRESULT} {l : List Nat} (hc : v.layout.IsCluster c)
    (hused : 2 ≤ v.fat c) (hkept : v.Kept v₃) (hlast : v₃.fs.last_clust = v.fs.last_clust) (hclear : v₃.fat c = 0)
    (hothers : ∀ x, v.layout.IsCluster x → x ≠ c → v₃.fat x = v.fat x) (hcounted : v.Counted → v₃.Counted)
    (h : v₃.Removed v' (v.fat c) res l) : v.Removed v' c res (c :: l) := by
  have hled : ∀ x, v.layout.Led v.fat c x ↔ x = c ∨ v₃.layout.Led v₃.fat (v.fat c) x := fun x => by
    rw [hkept.layout]
    exact FatLayout.led_clear hc hclear hothers
  have hsame : ∀ x, v₃.layout.Led v₃.fat (v.fat c) x → x ≠ c → v₃.fat x = v.fat x := fun x hx hne =>
    hothers x (hkept.layout ▸ hx.isCluster) hne
  have hnot : c ∉ l := fun hmem => by
    have := ((h.mem c).mp hmem).2
    omega
  have hmem : ∀ x, x ∈ c :: l ↔ v.layout.Led v.fat c x ∧ 2 ≤ v.fat x := fun x => by
    rw [List.mem_cons, hled x]
    by_cases hx : x = c
    · subst hx
      simp [hused]
    · simp only [hx, false_or, h.mem x]
      exact and_congr_right fun hx' => by rw [hsame x hx' hx]
  refine ⟨hkept.trans h.kept, h.last_clust.trans hlast, List.nodup_cons.mpr ⟨hnot, h.nodup⟩, hmem, fun x hx => ?_,
    fun x hx hnotin => ?_, ?_, h.counted ∘ hcounted⟩
  · rcases List.mem_cons.mp hx with rfl | hx
    · rw [h.others x (hkept.layout.symm ▸ hc) hnot, hclear]
    · exact h.freed x hx
  · obtain ⟨hne, hnotin⟩ := not_or.mp fun hin => hnotin (List.mem_cons.mpr hin)
    rw [h.others x (hkept.layout.symm ▸ hx) hnotin, hothers x hx hne]
  · rcases h.res with ⟨hres, x, hx, hone⟩ | ⟨hres, hnone⟩
    · have hne : x ≠ c := fun heq => by
        rw [heq, hclear] at hone
        cases hone
      exact .inl ⟨hres, x, (hled x).mpr (.inr hx), (hsame x hx hne).symm.trans hone⟩
    · refine .inr ⟨hres, fun x hx hone => ?_⟩
      by_cases hne : x = c
      · rw [hne] at hone
        omega
      · have hx := ((hled x).mp hx).resolve_left hne
        exact hnone x hx ((hsame x hx hne).trans hone)

/-- **The loop frees all that is led to**, whatever the table holds: it does not run forever, as each round frees
a cluster. -/
theorem Volume.Sound.removeLoop (h : v.Sound) (hc : 2 ≤ c) (hfuel : v.used.card < fuel) :
    ∃ res v' l, Fat.removeLoop fuel c v = .ok (res, v') ∧ v'.Sound ∧ v.Removed v' c res l
      ∧ (v'.fs.winsect = v.fs.winsect ∨ v.layout.InTable v'.fs.winsect) := by
  induction fuel generalizing c v with
  | zero => exact absurd hfuel (Nat.not_lt_zero _)
  | succ fuel ih =>
    have hL := h.wellFormed
    rw [Fat.removeLoop]
    by_cases hend : v.fs.n_fatent ≤ c
    · have hnot : ∀ x, ¬ v.layout.Led v.fat c x := fun x hx => Nat.not_lt.mpr hend hx.1.2
      rw [if_pos hend]
      exact ⟨_, v, [], rfl, h, (Moved.refl v).removed hL (fun x hx => absurd hx (hnot x))
        (.inr ⟨rfl, fun x hx => absurd hx (hnot x)⟩), .inl rfl⟩
    have hcluster : v.layout.IsCluster c := ⟨hc, Nat.not_le.mp hend⟩
    obtain ⟨v₁, hget, hsound₁, hmoved, hin⟩ := h.getFat hcluster
    simp only [if_neg hend, hget, kernel_ok_bind]
    by_cases hfew : v.fat c < 2
    · have hled : ∀ x, v.layout.Led v.fat c x ↔ x = c := fun x =>
        FatLayout.led_last hcluster fun hd => Nat.not_lt.mpr hd.1 hfew
      have hled' : ∀ x, v.layout.Led v.fat c x → v.fat x < 2 := fun x hx => (hled x).mp hx ▸ hfew
      by_cases hzero : v.fat c = 0
      · rw [if_pos hzero]
        refine ⟨_, v₁, [], rfl, hsound₁, hmoved.removed hL hled' (.inr ⟨rfl, fun x hx => ?_⟩), .inr hin⟩
        rw [(hled x).mp hx, hzero]
        exact Nat.zero_ne_one
      · have hone : v.fat c = 1 := by omega
        rw [if_neg hzero, if_pos hone]
        exact ⟨_, v₁, [], rfl, hsound₁, hmoved.removed hL hled' (.inl ⟨rfl, c, (hled c).mpr rfl, hone⟩), .inr hin⟩
    · have hmark : v.fat c ≠ 0xFFFFFFFF := by
        have hle : v.fat c ≤ v.layout.mark := FatLayout.entry_le_mark _ _ _
        have hlt : v.layout.mark < 2 ^ 28 := v.layout.mark_lt
        omega
      rw [if_neg (by omega), if_neg (by omega), if_neg hmark]
      have hcluster₁ : v₁.layout.IsCluster c := hmoved.layout.symm ▸ hcluster
      have hfat₁ : ∀ x, v.layout.IsCluster x → v₁.fat x = v.fat x := fun x hx => hmoved.fat hL hx
      obtain ⟨v₂, hput, hsound₃, hkept, hlast, hclear, hothers, hcounted, hin₂⟩ :=
        hsound₁.freeCluster hcluster₁ (by rw [hfat₁ c hcluster]; omega)
      have hothers' : ∀ x, v.layout.IsCluster x → x ≠ c → (countFreed v₂).fat x = v.fat x := fun x hx hne =>
        (hothers x (hmoved.layout.symm ▸ hx) hne).trans (hfat₁ x hx)
      have hkept' := hmoved.stored.kept.trans hkept
      have hfewer : (countFreed v₂).used.card < fuel := by
        have hsub : (countFreed v₂).used ⊆ v.used.erase c := fun x hx => by
          obtain ⟨hx, hused⟩ := mem_used.mp hx
          have hne : x ≠ c := fun heq => hused (heq ▸ hclear)
          rw [hkept'.layout] at hx
          exact Finset.mem_erase.mpr ⟨hne, mem_used.mpr ⟨hx, hothers' x hx hne ▸ hused⟩⟩
        have hmem : c ∈ v.used := mem_used.mpr ⟨hcluster, by omega⟩
        have hle := Finset.card_le_card hsub
        have hlt := Finset.card_erase_lt_of_mem hmem
        omega
      obtain ⟨res, v', l, hrun, hsound', hremoved, hwindow⟩ := ih hsound₃ (by omega : 2 ≤ v.fat c) hfewer
      refine ⟨res, v', c :: l, ?_, hsound', hremoved.cons hcluster (by omega) hkept' (hlast.trans hmoved.last_clust)
        hclear hothers' (hcounted ∘ hmoved.counted hL), .inr ?_⟩
      · simp only [hput, kernel_ok_bind, ne_eq, not_true_eq_false, if_false]
        exact hrun
      · rw [hkept'.layout] at hwindow
        rw [hmoved.layout] at hin₂
        exact hwindow.elim (fun heq => heq.symm ▸ hin₂) fun hin' => hin'

/-- **`remove_chain` frees exactly the clusters that the links lead to**, from the given one on. -/
theorem Volume.Sound.removeChain (h : v.Sound) (hc : v.layout.IsCluster c) :
    ∃ res v' l, Fat.removeChain c v = .ok (res, v') ∧ v'.Sound ∧ v.Removed v' c res l
      ∧ (v'.fs.winsect = v.fs.winsect ∨ v.layout.InTable v'.fs.winsect) := by
  have hcard : v.used.card < v.fs.n_fatent := by
    have hsub : v.used ⊆ (Finset.range v.fs.n_fatent).erase 0 := fun x hx => by
      obtain ⟨hx, -⟩ := mem_used.mp hx
      exact Finset.mem_erase.mpr ⟨by have := hx.1; omega, Finset.mem_range.mpr hx.2⟩
    have hpos : 0 < v.fs.n_fatent := Nat.lt_trans (by decide) h.wellFormed.clusters
    have hle := Finset.card_le_card hsub
    rw [Finset.card_erase_of_mem (Finset.mem_range.mpr hpos), Finset.card_range] at hle
    omega
  rw [Fat.removeChain, if_neg fun hout => hout.elim (Nat.not_lt.mpr hc.1) (Nat.not_le.mpr hc.2)]
  exact h.removeLoop hc.1 hcard

end KaushOS.Fat
