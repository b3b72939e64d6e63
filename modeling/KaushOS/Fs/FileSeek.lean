import KaushOS.Fs.FileWrite

/-! # Seeking in a file (`kern/fs/ff.c`)

`f_lseek` follows the clusters up to the new position, from the current cluster where it can. In write mode
it stretches the chain for a position behind the end of the file.

* **`Followed`** — what following clusters may change.
* **`FileData.seekLoop`** — the loop over the clusters.
* **`FileOpen.fLseek`** — where the function leaves the position, and what has become of the file. -/

namespace KaushOS.Fat

open LinkedChain WriteBack Streams

variable {v v' v'' : Volume} {c k m n ofs fuel clst : Nat} {l l' l'' : List Nat} {S : Set Nat} {fp fp' fp'' : FIL}

/-! ## Positions in clusters -/

/-- The cluster of the byte before an offset in the cluster `m`. -/
theorem place_of_offset {b r : Nat} (hpos : 0 < r) (hle : r ≤ b * 512) : (m * (b * 512) + r - 1) / 512 / b = m := by
  rw [Nat.div_div_eq_div_mul, Nat.mul_comm 512 b]
  refine Nat.div_eq_of_lt_le (by omega) ?_
  rw [Nat.succ_mul]
  omega

/-- The sector of an offset in the cluster `m`. -/
theorem sector_of_offset {b r : Nat} : (m * (b * 512) + r) / 512 = m * b + r / 512 := by
  rw [← Nat.mul_assoc]
  omega

/-- The sector of a chain at an offset in the cluster `m`. -/
theorem FatLayout.sectorAt_offset {L : FatLayout} (hk : k < L.csize) :
    L.sectorAt l (m * L.csize + k) = L.sectorOf (l.getD m 0) + k := by
  unfold sectorAt
  rw [Nat.mul_comm m, Nat.mul_add_div (by omega), Nat.div_eq_of_lt hk, Nat.add_zero, Nat.mul_add_mod, Nat.mod_eq_of_lt hk]

/-! ## Following the clusters -/

/-- **What following clusters may change**: the chain may have grown. -/
structure Followed (S : Set Nat) (v : Volume) (fp : FIL) (l : List Nat) (v' : Volume) (fp' : FIL) (l' : List Nat) :
    Prop where
  step : FileStep S v v' l l'
  longer : l <+: l'
  data : FileData S v' fp' l'
  keeps : fp.Keeps fp'
  same : ∀ i < l.length * v.layout.csize * 512, fileByte v' fp' l' i = fileByte v fp l i

theorem Followed.trans (h : Followed S v fp l v' fp' l') (h' : Followed S v' fp' l' v'' fp'' l'') :
    Followed S v fp l v'' fp'' l'' where
  step := h.step.trans h'.step (fun _ hx => h.longer.subset hx) fun _ hx => h'.longer.subset hx
  longer := h.longer.trans h'.longer
  data := h'.data
  keeps := h.keeps.trans h'.keeps
  same i hi := by
    have hlen := Nat.mul_le_mul_right 512 (Nat.mul_le_mul_right v.layout.csize h.longer.length_le)
    rw [h'.same i (by rw [h.step.layout]; exact hi.trans_le hlen), h.same i hi]

/-- The position is set. -/
theorem FileData.setPos (h : FileData S v fp l) (hn : n ≤ l.length * v.layout.csize * 512) :
    FileData S v { fp with fptr := n } l :=
  ⟨h.chain, h.owned, h.org, h.size, hn, h.buffer, h.loaded, h.coherent⟩

theorem Followed.setPos (h : Followed S v fp l v' fp' l') (hn : n ≤ l'.length * v'.layout.csize * 512) :
    Followed S v fp l v' { fp' with fptr := n } l' :=
  ⟨h.step, h.longer, h.data.setPos hn, ⟨h.keeps.handle, h.keeps.fsize, h.keeps.written, h.keeps.dirty⟩, h.same⟩

theorem FileData.followed (h : FileData S v fp l) (hready : v.Ready S) : Followed S v fp l v fp l :=
  ⟨hready.refl_step l, List.prefix_rfl, h, .refl fp, fun _ _ => rfl⟩

/-- The file goes on with a cluster of a chain that may have grown. -/
theorem FileData.goOn (h : FileData S v fp l) (hstep : FileStep S v v' l l') (hsame : v.SameData S v')
    (hready : v.Ready S) (hchain : v'.HasChain l') (hinitial : l <+: l') (c : Nat) :
    Followed S v fp l v' { fp with org_clust := l'.headD 0, curr_clust := c } l' := by
  obtain ⟨hdata, hbyte⟩ := h.onward hstep.toDataStep hsame hready hchain hinitial c
  exact ⟨hstep, hinitial, hdata, ⟨rfl, rfl, rfl, fun hdirty => hdirty⟩, hbyte⟩

/-- A chain that is not empty keeps its first cluster. -/
theorem headD_of_initial {a : Nat} (h : l <+: l') (ha : a ∈ l) : l'.headD 0 = l.headD 0 := by
  obtain ⟨t, rfl⟩ := h
  cases l with
  | nil => exact absurd ha List.not_mem_nil
  | cons b l => rfl

/-- **The next cluster for `f_lseek`**; in write mode it may be a new one, or no cluster is free. -/
theorem FileData.seekNext (h : FileData S v fp l) (hready : v.Ready S) (hget : l[m]? = some clst)
    (hmode : fp.FA_WRITE = true ∨ m + 1 < l.length) :
    ∃ r v' l', Fat.seekNext clst fp v = .ok (r, v') ∧ FileStep S v v' l l' ∧ v.SameData S v' ∧ v'.HasChain l' ∧ l <+: l'
      ∧ (fp.FA_WRITE = true ∧ r = 0 ∧ l' = l ∧ m + 1 = l.length ∧ v'.free = ∅ ∨ r ∈ S ∧ l'[m + 1]? = some r) := by
  unfold Fat.seekNext
  by_cases hwrite : fp.FA_WRITE = true
  · obtain ⟨r, v', l', hrun, hstep, hsame, hchain, hinitial, hcase⟩ :=
      hready.createChain h.chain h.owned (.inr ⟨m, rfl, hget⟩)
    rw [if_pos hwrite]
    exact ⟨r, v', l', hrun, hstep, hsame, hchain, hinitial, hcase.imp_left fun hfull => ⟨hwrite, hfull⟩⟩
  · have hlt := hmode.resolve_left hwrite
    obtain ⟨hm, rfl⟩ := List.getElem?_eq_some_iff.mp hget
    obtain ⟨v', hrun, hstep, hsame, hchain⟩ := hready.getFat h.chain hm hlt
    rw [if_neg hwrite]
    exact ⟨_, v', l, hrun, hstep, hsame, hchain, List.prefix_rfl,
      .inr ⟨h.owned _ (List.getElem_mem hlt), List.getElem?_eq_getElem hlt⟩⟩

/-- **Where the loop of `f_lseek` ends**: in the cluster `m`, at the offset `r` in it. It gives `clst`, which is 0 where
the chain could not be stretched up to the position `target`. -/
structure Arrived (v' : Volume) (fp' : FIL) (l' : List Nat) (target clst m r : Nat) :
    Prop where
  cluster : l'[m]? = some fp'.curr_clust
  ptr : fp'.fptr = m * (v'.layout.csize * 512)
  positive : 0 < r
  le : r ≤ v'.layout.csize * 512
  reached : clst = fp'.curr_clust ∧ m * (v'.layout.csize * 512) + r = target
    ∨ clst = 0 ∧ fp'.FA_WRITE = true ∧ r = v'.layout.csize * 512 ∧ m + 1 = l'.length ∧ v'.free = ∅
      ∧ m * (v'.layout.csize * 512) + r < target

/-- **The loop of `f_lseek`** arrives at its position, or at the end of the chain when no cluster is free. -/
theorem FileData.seekLoop (h : FileData S v fp l) (hready : v.Ready S) (hcurr : l[m]? = some fp.curr_clust)
    (hptr : fp.fptr = m * (v.layout.csize * 512)) (hpos : 0 < ofs) (hsmall : m * (v.layout.csize * 512) + ofs < 2 ^ 32)
    (hmode : fp.FA_WRITE = true ∨ m * (v.layout.csize * 512) + ofs ≤ l.length * (v.layout.csize * 512))
    (hfuel : ofs < fuel) :
    ∃ clst r m' fp' v' l', Fat.seekLoop fuel fp.curr_clust ofs fp v = .ok (.FR_OK, clst, r, fp', v')
      ∧ Followed S v fp l v' fp' l' ∧ Arrived v' fp' l' (m * (v.layout.csize * 512) + ofs) clst m' r := by
  induction fuel generalizing m ofs fp v l with
  | zero => exact absurd hfuel (Nat.not_lt_zero _)
  | succ fuel ih =>
    rw [Fat.seekLoop]
    have hbcs : v.fs.csize * 512 = v.layout.csize * 512 := rfl
    have hcsize := hready.sound.wellFormed.csize_pos
    by_cases hle : ofs ≤ v.fs.csize * 512
    · rw [if_pos hle]
      exact ⟨_, ofs, m, fp, v, l, rfl, h.followed hready, hcurr, hptr, hpos, hle, .inl ⟨rfl, rfl⟩⟩
    · have hmore : fp.FA_WRITE = true ∨ m + 1 < l.length := hmode.imp_right fun hin => by
        have hlt : (m + 1) * (v.layout.csize * 512) < l.length * (v.layout.csize * 512) := by
          rw [Nat.succ_mul]
          omega
        exact lt_of_mul_lt_mul_right hlt (Nat.zero_le _)
      obtain ⟨r, v₁, l₁, hrun, hstep, hsame, hchain, hinitial, hcase⟩ := h.seekNext hready hcurr hmore
      have hlayout := hstep.layout
      have hhead : l₁.headD 0 = fp.org_clust := by
        rw [h.org, headD_of_initial hinitial (List.mem_of_getElem? hcurr)]
      rw [if_neg hle, hrun, kernel_ok_bind]
      dsimp only
      rcases hcase with ⟨hwrite, rfl, rfl, hend, hfree⟩ | ⟨hr, hget⟩
      · have hfollowed := h.goOn hstep hsame hready hchain hinitial fp.curr_clust
        have hself : { fp with org_clust := l₁.headD 0, curr_clust := fp.curr_clust } = fp := by rw [hhead]
        rw [hself] at hfollowed
        rw [if_pos ⟨hwrite, rfl⟩]
        refine ⟨0, v.fs.csize * 512, m, fp, v₁, l₁, rfl, hfollowed, hcurr, ?_, ?_, ?_, .inr ?_⟩
        · rw [hlayout, hptr]
        · omega
        · rw [hlayout]
          exact le_rfl
        · rw [hlayout]
          exact ⟨rfl, hwrite, rfl, hend, hfree, by omega⟩
      · obtain ⟨htwo, hlt, hcode⟩ := hstep.ready.cluster_lt hr
        have hlt : r < v₁.fs.n_fatent := hlt
        have hfollowed := h.goOn hstep hsame hready hchain hinitial r
        have hself : { fp with org_clust := l₁.headD 0, curr_clust := r } = { fp with curr_clust := r } := by rw [hhead]
        rw [hself] at hfollowed
        have hplace : m + 1 < l₁.length := (List.getElem?_eq_some_iff.mp hget).1
        have hword : dword (fp.fptr + v.fs.csize * 512) = (m + 1) * (v.layout.csize * 512) := by
          rw [hptr, dword_of_lt (by omega), Nat.succ_mul, hbcs]
        have hin : (m + 1) * (v.layout.csize * 512) ≤ l₁.length * v₁.layout.csize * 512 := by
          rw [hlayout, Nat.mul_assoc]
          exact Nat.mul_le_mul_right _ hplace.le
        have hfollowed₁ : Followed S v fp l v₁
            { fp with curr_clust := r, fptr := (m + 1) * (v.layout.csize * 512) } l₁ := hfollowed.setPos hin
        have hlonger := Nat.mul_le_mul_right (v.layout.csize * 512) hinitial.length_le
        obtain ⟨clst, r', m', fp', v', l', hrun', hfollowed', harrived⟩ :=
          ih hfollowed₁.data hstep.ready hget (m := m + 1) (by rw [hlayout]) (by omega : 0 < ofs - v.fs.csize * 512)
            (by rw [hlayout, Nat.succ_mul]; omega) (by rw [hlayout, Nat.succ_mul]; exact hmode.imp_right fun hin => by omega)
            (by omega)
        rw [if_neg (by omega), if_neg (by omega), if_neg (by omega), hword, hrun']
        refine ⟨clst, r', m', fp', v', l', rfl, hfollowed₁.trans hfollowed', ?_⟩
        have hsum : (m + 1) * (v₁.layout.csize * 512) + (ofs - v.fs.csize * 512) = m * (v.layout.csize * 512) + ofs := by
          rw [hlayout, Nat.succ_mul]
          omega
        rwa [hsum] at harrived

/-! ## The function -/

/-- The cluster of the last byte before a position. -/
theorem div_cluster {q b : Nat} : q / (b * 512) = q / 512 / b := by
  rw [Nat.div_div_eq_div_mul, Nat.mul_comm]

/-- The whole clusters before a byte of the file. -/
theorem cluster_mul_le {q a b : Nat} (h : q < a * b * 512) : q / (b * 512) < a ∧ q / (b * 512) * (b * 512) ≤ q :=
  ⟨Nat.div_lt_of_lt_mul (by rwa [Nat.mul_comm, ← Nat.mul_assoc]), Nat.div_mul_le_self ..⟩

/-- **Where `f_lseek` begins**: in a cluster from which the position can be reached, or there is none. -/
theorem FileAt.seekStart (h : FileAt S v fp l) (hready : v.Ready S) (hofs : 0 < ofs) (hsmall : ofs < 2 ^ 32)
    (hmode : fp.FA_WRITE = true ∨ ofs ≤ fp.fsize) :
    ∃ clst rest fp' v' l', Fat.seekStart ofs fp.fptr { fp with fptr := 0 } v = .ok (.FR_OK, clst, rest, fp', v')
      ∧ Followed S v fp l v' fp' l'
      ∧ (clst = 0 ∧ fp'.fptr = 0 ∧ l' = [] ∧ fp.FA_WRITE = true ∧ v'.free = ∅
        ∨ clst = fp'.curr_clust ∧ ∃ m, l'[m]? = some clst ∧ fp'.fptr = m * (v'.layout.csize * 512) ∧ 0 < rest
          ∧ m * (v'.layout.csize * 512) + rest = ofs) := by
  have hL := hready.sound.wellFormed
  have hsize := h.size
  have hpos := h.pos
  have hbcs : v.fs.csize * 512 = v.layout.csize * 512 := rfl
  have hzero : FileData S v { fp with fptr := 0 } l := h.toFileData.setPos (Nat.zero_le _)
  have hfollowed : Followed S v fp l v fp l := h.toFileData.followed hready
  have horg : fp.org_clust = l.headD 0 := h.org
  unfold Fat.seekStart
  dsimp only
  by_cases hnear : 0 < fp.fptr ∧ (fp.fptr - 1) / (v.fs.csize * 512) ≤ (ofs - 1) / (v.fs.csize * 512)
  · rw [if_pos hnear]
    rw [hbcs] at hnear ⊢
    have hcurr := h.curr hnear.1
    rw [← div_cluster] at hcurr
    obtain ⟨hplace, hmul⟩ := cluster_mul_le (by omega : fp.fptr - 1 < l.length * v.layout.csize * 512)
    have hmul' := Nat.mul_le_mul_right (v.layout.csize * 512) hnear.2
    have hdiv := Nat.div_mul_le_self (ofs - 1) (v.layout.csize * 512)
    refine ⟨fp.curr_clust, _, _, v, l, rfl, hfollowed.setPos (by omega), .inr ⟨rfl, _, hcurr, rfl, by omega, by omega⟩⟩
  · rw [if_neg hnear]
    by_cases hnone : fp.org_clust = 0
    · have hl : l = [] := by
        cases l with
        | nil => rfl
        | cons a l =>
          have := (h.chain.used a List.mem_cons_self).1.1
          rw [hnone, List.headD_cons] at horg
          omega
      subst hl
      have hwrite : fp.FA_WRITE = true := hmode.resolve_right fun hle => by
        rw [List.length_nil, Nat.zero_mul, Nat.zero_mul] at hsize
        omega
      obtain ⟨r, v', l', hrun, hstep, hsame, hchain, hinitial, hcase⟩ :=
        hready.createChain h.chain h.owned (.inl ⟨rfl, rfl, rfl⟩)
      have hhead : l'.headD 0 = r := by
        rcases hcase with ⟨hr, hl, -⟩ | ⟨-, hr⟩
        · rw [hl, hr]
          rfl
        · rw [List.headD_eq_head?_getD, List.head?_eq_getElem?, hr, Option.getD_some]
      have hfollowed' := h.toFileData.goOn hstep hsame hready hchain hinitial r
      rw [hhead] at hfollowed'
      rw [if_pos hnone, hrun, kernel_ok_bind]
      dsimp only
      rcases hcase with ⟨rfl, rfl, -, hfree⟩ | ⟨hr, hget⟩
      · rw [if_neg (by decide), if_neg (by decide)]
        exact ⟨0, ofs, _, v', [], rfl, hfollowed'.setPos (Nat.zero_le _), .inl ⟨rfl, rfl, rfl, hwrite, hfree⟩⟩
      · obtain ⟨htwo, -, hcode⟩ := hready.cluster_lt hr
        rw [if_neg (by omega), if_neg (by omega)]
        exact ⟨r, ofs, _, v', l', rfl, hfollowed'.setPos (Nat.zero_le _),
          .inr ⟨rfl, 0, hget, (Nat.zero_mul _).symm, hofs, by rw [Nat.zero_mul, Nat.zero_add]⟩⟩
    · have hget : l[0]? = some fp.org_clust := by
        cases l with
        | nil => exact absurd horg hnone
        | cons a l => exact congrArg some horg.symm
      have hfollowed' := h.toFileData.goOn (hready.refl_step l) (fun _ _ _ _ => rfl) hready h.chain List.prefix_rfl
        fp.org_clust
      rw [← horg] at hfollowed'
      rw [if_neg hnone]
      exact ⟨fp.org_clust, ofs, _, v, l, rfl, hfollowed'.setPos (Nat.zero_le _),
        .inr ⟨rfl, 0, hget, (Nat.zero_mul _).symm, hofs, by rw [Nat.zero_mul, Nat.zero_add]⟩⟩

/-- **What `f_lseek` has found**: the clusters for a position, and the sector of a position inside of a sector. -/
structure Found (v' : Volume) (fp' : FIL) (l' : List Nat) (target nsect : Nat) : Prop where
  curr : 0 < fp'.fptr → l'[(fp'.fptr - 1) / 512 / v'.layout.csize]? = some fp'.curr_clust
  inside : fp'.fptr % 512 ≠ 0 → fp'.fptr / 512 < l'.length * v'.layout.csize
    ∧ nsect = v'.layout.sectorAt l' (fp'.fptr / 512)
  reached : fp'.fptr = target
    ∨ fp'.FA_WRITE = true ∧ v'.free = ∅ ∧ fp'.fptr < target ∧ fp'.fptr = l'.length * v'.layout.csize * 512

/-- The position behind the clusters that have been followed. -/
theorem Arrived.found {target r : Nat} (h : Arrived v' fp' l' target clst m r) (hdata : FileData S v' fp' l')
    (hready : v'.Ready S) :
    m * (v'.layout.csize * 512) + r ≤ l'.length * v'.layout.csize * 512
      ∧ (clst = 0 → r % 512 = 0)
      ∧ (r % 512 ≠ 0 → clust2sect v'.layout clst ≠ 0
        ∧ dword (clust2sect v'.layout clst + r / 512) = v'.layout.sectorAt l' ((m * (v'.layout.csize * 512) + r) / 512)
        ∧ (m * (v'.layout.csize * 512) + r) / 512 < l'.length * v'.layout.csize) := by
  have hL := hready.sound.wellFormed
  have hpos := h.positive
  have hle := h.le
  obtain ⟨hplace, hget⟩ := List.getElem?_eq_some_iff.mp h.cluster
  have hlast : (m + 1) * (v'.layout.csize * 512) ≤ l'.length * (v'.layout.csize * 512) :=
    Nat.mul_le_mul_right _ hplace
  rw [Nat.succ_mul, ← Nat.mul_assoc l'.length] at hlast
  have hcluster := (hdata.chain.used _ (List.mem_of_getElem? h.cluster)).1
  refine ⟨by omega, fun hclst => ?_, fun hmod => ?_⟩
  · rcases h.reached with ⟨heq, -⟩ | ⟨-, -, heq, -⟩
    · have := hcluster.1
      omega
    · omega
  · have hclst : clst = fp'.curr_clust := h.reached.elim And.left fun hfull => absurd hfull.2.2.1 (by omega)
    have hlt : r / 512 < v'.layout.csize := by omega
    have hsect : v'.layout.sectorOf clst + r / 512 = v'.layout.sectorAt l' (m * v'.layout.csize + r / 512) := by
      rw [FatLayout.sectorAt_offset hlt, List.getD_eq_getElem?_getD, h.cluster, Option.getD_some, hclst]
    have hk : (m * (v'.layout.csize * 512) + r) / 512 < l'.length * v'.layout.csize := by omega
    have hlba := hdata.sectorAt_lt hready hk
    rw [sector_of_offset] at hlba hk ⊢
    rw [hclst, hready.sound.clust2sect hcluster, ← hclst, hsect, dword_of_lt (by omega)]
    exact ⟨hL.sectorOf_ne_zero, rfl, hk⟩

/-- **`f_lseek` finds its position.** -/
theorem FileAt.seekCluster (h : FileAt S v fp l) (hready : v.Ready S) (hofs : 0 < ofs) (hsmall : ofs < 2 ^ 32)
    (hmode : fp.FA_WRITE = true ∨ ofs ≤ fp.fsize) :
    ∃ nsect fp' v' l', Fat.seekCluster ofs fp.fptr { fp with fptr := 0 } v = .ok (.FR_OK, nsect, fp', v')
      ∧ Followed S v fp l v' fp' l' ∧ Found v' fp' l' ofs nsect := by
  obtain ⟨clst, rest, fp₁, v₁, l₁, hrun, hfollowed, hcase⟩ := h.seekStart hready hofs hsmall hmode
  rw [Fat.seekCluster, hrun, kernel_ok_bind]
  dsimp only
  rw [if_neg (not_not.mpr rfl)]
  have hwrite : ∀ {fp'' : FIL}, fp.Keeps fp'' → fp''.FA_WRITE = fp.FA_WRITE := fun hkeeps => by
    have hhandle := hkeeps.handle
    simp only [FIL.handle, Prod.mk.injEq] at hhandle
    exact hhandle.2.2.2.1
  rcases hcase with ⟨rfl, hptr, rfl, hmode', hfree⟩ | ⟨rfl, m, hget, hptr, hrest, hsum⟩
  · refine ⟨0, fp₁, v₁, [], if_pos rfl, hfollowed, fun hpos => absurd hptr hpos.ne', fun hmod => ?_,
      .inr ⟨(hwrite hfollowed.keeps).trans hmode', hfree, hptr ▸ hofs, ?_⟩⟩
    · rw [hptr] at hmod
      exact absurd rfl hmod
    · rw [hptr, List.length_nil, Nat.zero_mul, Nat.zero_mul]
  · have hclst : fp₁.curr_clust ≠ 0 := by
      have := (hfollowed.data.chain.used _ (List.mem_of_getElem? hget)).1.1
      omega
    have hlonger := Nat.mul_le_mul_right 512 (Nat.mul_le_mul_right v.layout.csize hfollowed.longer.length_le)
    have hlayout := hfollowed.step.layout
    have hmode₁ : fp₁.FA_WRITE = true
        ∨ m * (v₁.layout.csize * 512) + rest ≤ l₁.length * (v₁.layout.csize * 512) := by
      refine hmode.imp (hwrite hfollowed.keeps).trans fun hle => ?_
      have hsize := h.size
      rw [hsum, hlayout, ← Nat.mul_assoc]
      omega
    obtain ⟨clst, r, m', fp₂, v₂, l₂, hrun₂, hfollowed₂, harrived⟩ :=
      hfollowed.data.seekLoop hfollowed.step.ready hget hptr hrest (by omega) hmode₁ (Nat.lt_succ_self rest)
    rw [hsum] at harrived
    have hready₂ := hfollowed₂.step.ready
    obtain ⟨hin, hnone, hsect⟩ := harrived.found hfollowed₂.data hready₂
    have hfollowed' := hfollowed.trans hfollowed₂
    have hptr₂ := harrived.ptr
    have htarget : m' * (v₂.layout.csize * 512) + r ≤ ofs :=
      harrived.reached.elim (fun hreached => hreached.2.le) fun hfull => hfull.2.2.2.2.2.le
    have hword : dword (fp₂.fptr + r) = m' * (v₂.layout.csize * 512) + r := by
      rw [hptr₂, dword_of_lt (by omega)]
    have hcurr : l₂[(m' * (v₂.layout.csize * 512) + r - 1) / 512 / v₂.layout.csize]? = some fp₂.curr_clust := by
      rw [place_of_offset harrived.positive harrived.le]
      exact harrived.cluster
    have hreached : m' * (v₂.layout.csize * 512) + r = ofs ∨ fp₂.FA_WRITE = true ∧ v₂.free = ∅
        ∧ m' * (v₂.layout.csize * 512) + r < ofs
        ∧ m' * (v₂.layout.csize * 512) + r = l₂.length * v₂.layout.csize * 512 := by
      refine harrived.reached.imp And.right fun hfull => ⟨hfull.2.1, hfull.2.2.2.2.1, hfull.2.2.2.2.2, ?_⟩
      rw [hfull.2.2.1, ← hfull.2.2.2.1, Nat.mul_assoc, Nat.succ_mul]
    rw [if_neg hclst, hrun₂, kernel_ok_bind]
    dsimp only
    rw [if_neg (not_not.mpr rfl), hword]
    by_cases hmod : r % 512 = 0
    · rw [if_pos hmod]
      refine ⟨0, _, v₂, l₂, rfl, hfollowed'.setPos hin, fun _ => hcurr, fun hne => ?_, hreached⟩
      have hne : (m' * (v₂.layout.csize * 512) + r) % 512 ≠ 0 := hne
      rw [← Nat.mul_assoc] at hne
      omega
    · obtain ⟨hne, hdword, hk⟩ := hsect hmod
      rw [if_neg hmod, if_neg hne]
      exact ⟨_, _, v₂, l₂, rfl, hfollowed'.setPos hin, fun _ => hcurr, fun _ => ⟨hk, hdword⟩, hreached⟩

/-- **The buffer is filled** for the position that has been found. -/
theorem Found.seekBuffer {target nsect : Nat} (h : Found v fp l target nsect) (hdata : FileData S v fp l)
    (hready : v.Ready S) :
    ∃ fp' v', Fat.seekBuffer nsect fp v = .ok (.FR_OK, fp', v') ∧ FileStep S v v' l l ∧ FileAt S v' fp' l
      ∧ fp.Keeps fp' ∧ fp'.fptr = fp.fptr ∧ ∀ i, fileByte v' fp' l i = fileByte v fp l i := by
  unfold Fat.seekBuffer
  by_cases hmod : fp.fptr % 512 = 0
  · rw [if_pos (.inl hmod)]
    exact ⟨fp, v, rfl, hready.refl_step l, ⟨hdata, h.curr, fun hne => absurd hmod hne⟩, .refl fp, rfl, fun _ => rfl⟩
  · obtain ⟨hk, hsect⟩ := h.inside hmod
    by_cases hheld : nsect = fp.dsect
    · rw [if_pos (.inr hheld)]
      exact ⟨fp, v, rfl, hready.refl_step l, ⟨hdata, h.curr, fun _ => hheld ▸ hsect⟩, .refl fp, rfl, fun _ => rfl⟩
    · obtain ⟨fp₁, v₁, hflush, hfp₁, hstep, hdata₁, hfs, hbyte₁⟩ := hdata.flush hready
      have hlayout : v₁.layout = v.layout := congrArg FATFS.toFatLayout hfs
      have hclean : fp₁.FA__DIRTY = false := by rw [hfp₁]
      obtain ⟨fp₂, hfill, hfp₂, hdata₂, hbyte₂⟩ := hdata₁.fill hstep.ready hclean (hlayout.symm ▸ hk)
      rw [hlayout, ← hsect] at hfill
      have hptr : fp₂.fptr = fp.fptr := by rw [hfp₂, hfp₁]
      have hcurr : fp₂.curr_clust = fp.curr_clust := by rw [hfp₂, hfp₁]
      rw [if_neg fun hor => hor.elim hmod hheld, hflush, kernel_ok_bind]
      dsimp only
      rw [if_neg (not_not.mpr rfl), hfill, kernel_ok_bind]
      refine ⟨fp₂, v₁, rfl, hstep, ⟨hdata₂, ?_, fun _ => ?_⟩, ⟨?_, ?_, ?_, fun hdirty => ?_⟩, hptr,
        fun i => (hbyte₂ i).trans (hbyte₁ i)⟩
      · rw [hptr, hcurr, hlayout]
        exact h.curr
      · rw [hptr, hlayout, ← hsect, hfp₂, hlayout, ← hsect]
      · rw [hfp₂, hfp₁]
        rfl
      · rw [hfp₂, hfp₁]
      · rw [hfp₂, hfp₁]
      · rw [hfp₂, hfp₁] at hdirty
        exact absurd hdirty Bool.false_ne_true

/-- An open file after its position has been set, and the file extended up to it. -/
theorem FileOpen.ended (h : FileOpen S v fp l) (hat : FileAt S v' fp' l') (hlayout : v'.layout = v.layout)
    (hkeeps : fp.Keeps fp') (hsmall : fp'.fptr < 2 ^ 32) : FileOpen S v' (endSeek fp') l' := by
  have hhandle := hkeeps.handle
  simp only [FIL.handle, Prod.mk.injEq] at hhandle
  obtain ⟨hfs, hid, -, -, herror, -, -⟩ := hhandle
  have hfsize := hkeeps.fsize
  have hsize := h.small
  have hwritten : fp'.FA__DIRTY = true → fp'.FA__WRITTEN = true := fun hdirty => by
    rw [hkeeps.written]
    exact h.written (hkeeps.dirty hdirty)
  unfold Fat.endSeek
  split
  · exact ⟨⟨⟨hat.chain, hat.owned, hat.org, hat.pos, hat.pos, hat.buffer, hat.loaded, hat.coherent⟩, hat.curr, hat.sect⟩,
      hfs.trans h.fs, (hid.trans h.id).trans (congrArg FatLayout.id hlayout).symm, herror.trans h.error, le_rfl, hsmall,
      fun _ => rfl⟩
  · exact ⟨hat, hfs.trans h.fs, (hid.trans h.id).trans (congrArg FatLayout.id hlayout).symm, herror.trans h.error,
      by omega, by omega, hwritten⟩

/-- **What has become of the bytes**, when the position has been set. -/
theorem FileOpen.seeked (h : FileOpen S v fp l) (h' : FileOpen S v' fp' l') (hle : fp.fsize ≤ fp'.fsize)
    (hpos : fp'.fptr = min ofs fp'.fsize) (hold : ∀ i < fp.fsize, fileByte v' fp' l' i = fileByte v fp l i)
    (hgrown : fp.fsize < fp'.fsize → fp.FA_WRITE = true ∧ fp'.fsize ≤ ofs)
    (hfull : fp.FA_WRITE = true → fp'.fsize < ofs → v'.free = ∅) :
    ∃ bytes, fileStream v' fp' l' = ((fileStream v fp l).extend bytes).seek ofs
      ∧ (bytes ≠ [] → fp.FA_WRITE = true ∧ fp.fsize + bytes.length ≤ ofs)
      ∧ (fp.FA_WRITE = true → fp.fsize + bytes.length < ofs → v'.free = ∅) := by
  have hmax : max fp.fsize fp.fptr = fp.fsize := max_eq_left h.settled
  have hmax' : max fp'.fsize fp'.fptr = fp'.fsize := max_eq_left h'.settled
  have hstream := ofFun_extend (le_max_right fp.fsize fp.fptr) (le_max_right fp'.fsize fp'.fptr) (hmax'.symm ▸ hmax.symm ▸ hle)
    (hmax'.symm ▸ hpos) (hmax.symm ▸ hold)
  have hlen : ((List.range (max fp'.fsize fp'.fptr - max fp.fsize fp.fptr)).map fun i =>
      fileByte v' fp' l' (max fp.fsize fp.fptr + i)).length = fp'.fsize - fp.fsize := by
    rw [List.length_map, List.length_range, hmax, hmax']
  refine ⟨_, hstream, fun hne => ?_, fun hwrite hlt => hfull hwrite (by omega)⟩
  have hlt : fp.fsize < fp'.fsize := by
    by_contra hnot
    exact hne (List.length_eq_zero_iff.mp (hlen.trans (Nat.sub_eq_zero_of_le (Nat.not_lt.mp hnot))))
  rw [hlen, Nat.add_sub_cancel' hle]
  exact hgrown hlt

/-- **`f_lseek` sets the position**, and leaves the bytes of the file as they are. In write mode the file is extended
up to a position behind its end, with bytes that nothing is said about; less only when no cluster is free. -/
theorem FileOpen.fLseek (h : FileOpen S v fp l) (hready : v.Ready S) (hofs : ofs < 2 ^ 32) :
    ∃ fp' v' l', Fat.fLseek ofs fp v = .ok (.FR_OK, fp', v')
      ∧ (∃ bytes, fileStream v' fp' l' = ((fileStream v fp l).extend bytes).seek ofs
        ∧ (bytes ≠ [] → fp.FA_WRITE = true ∧ fp.fsize + bytes.length ≤ ofs)
        ∧ (fp.FA_WRITE = true → fp.fsize + bytes.length < ofs → v'.free = ∅))
      ∧ FileStep S v v' l l' ∧ l <+: l' ∧ FileOpen S v' fp' l' ∧ fp'.handle = fp.handle ∧ fp.Marked fp' := by
  have hsmall := h.small
  obtain ⟨target, htarget⟩ : ∃ target, target = if fp.fsize < ofs ∧ fp.FA_WRITE = false then fp.fsize else ofs := ⟨_, rfl⟩
  have hmode : fp.FA_WRITE = true ∧ target = ofs ∨ fp.FA_WRITE = false ∧ target = min ofs fp.fsize := by
    by_cases hwrite : fp.FA_WRITE = true
    · exact .inl ⟨hwrite, htarget.trans (if_neg fun hclip => by rw [hwrite] at hclip; exact absurd hclip.2 (by decide))⟩
    · have hread : fp.FA_WRITE = false := by simpa using hwrite
      refine .inr ⟨hread, ?_⟩
      by_cases hlt : fp.fsize < ofs
      · rw [htarget, if_pos ⟨hlt, hread⟩, min_eq_right hlt.le]
      · rw [htarget, if_neg fun hclip => hlt hclip.1, min_eq_left (Nat.not_lt.mp hlt)]
  have hread : fp.FA_WRITE = true → target = ofs := fun hwrite =>
    hmode.elim And.right fun hread => absurd (hwrite.symm.trans hread.1) (by decide)
  have hmode' : fp.FA_WRITE = true ∨ target ≤ fp.fsize :=
    hmode.imp And.left fun hread => hread.2.trans_le (min_le_right _ _)
  rw [Fat.fLseek, h.validate hready]
  dsimp only
  rw [if_neg (not_not.mpr rfl), if_neg (by rw [h.error]; decide), ← htarget]
  by_cases hzero : target = 0
  · have hopen : FileOpen S v { fp with fptr := 0 } l :=
      ⟨⟨h.toFileData.setPos (Nat.zero_le _), fun hpos => absurd hpos (Nat.lt_irrefl 0), fun hne => absurd rfl hne⟩,
        h.fs, h.id, h.error, Nat.zero_le _, h.small, h.written⟩
    rw [if_pos hzero]
    refine ⟨_, v, l, rfl, h.seeked hopen le_rfl ?_ (fun _ _ => rfl) (fun hlt => absurd hlt (Nat.lt_irrefl _))
      (fun hwrite hlt => ?_), hready.refl_step l, List.prefix_rfl, hopen, rfl, fun hclean => ⟨hclean, rfl, rfl⟩⟩
    · show 0 = min ofs fp.fsize
      omega
    · have := hread hwrite
      omega
  · obtain ⟨nsect, fp₁, v₁, l₁, hrun, hfollowed, hfound⟩ :=
      h.seekCluster hready (Nat.pos_of_ne_zero hzero) (by omega : target < 2 ^ 32) hmode'
    obtain ⟨fp₂, v₂, hbuffer, hstep, hat, hkeeps, hptr, hbyte⟩ := hfound.seekBuffer hfollowed.data hfollowed.step.ready
    have hreached := hfound.reached
    have hlayout : v₂.layout = v.layout := hstep.layout.trans hfollowed.step.layout
    have hkeeps' := hfollowed.keeps.trans hkeeps
    have hfsize := hkeeps'.fsize
    have hsize₂ := hat.size
    have hsize := h.size
    have hlonger := Nat.mul_le_mul_right 512 (Nat.mul_le_mul_right v.layout.csize hfollowed.longer.length_le)
    have hopen := h.ended hat hlayout hkeeps' (by omega)
    have hfree := hstep.free_same hfollowed.data.chain hat.chain
    have hends : (endSeek fp₂).fsize = max fp.fsize fp₂.fptr ∧ (endSeek fp₂).fptr = fp₂.fptr
        ∧ (endSeek fp₂).handle = fp₂.handle ∧ (∀ i, fileByte v₂ (endSeek fp₂) l₁ i = fileByte v₂ fp₂ l₁ i)
        ∧ ((endSeek fp₂).FA__WRITTEN = false → fp₂.FA__WRITTEN = false ∧ fp₂.fptr ≤ fp.fsize) := by
      by_cases hlt : fp₂.fsize < fp₂.fptr
      · have hmax : max fp.fsize fp₂.fptr = fp₂.fptr := max_eq_right (by omega)
        rw [Fat.endSeek, if_pos hlt, hmax]
        exact ⟨rfl, rfl, rfl, fun _ => rfl, fun hclean => absurd hclean.symm Bool.false_ne_true⟩
      · have hmax : max fp.fsize fp₂.fptr = fp.fsize := max_eq_left (by omega)
        rw [Fat.endSeek, if_neg hlt, hmax]
        exact ⟨hfsize, rfl, rfl, fun _ => rfl, fun hclean => ⟨hclean, by omega⟩⟩
    obtain ⟨hend, hpos, hhandle, hsame, hmark⟩ := hends
    have hwrite₁ : fp₁.FA_WRITE = fp.FA_WRITE := by
      have hhandle := hfollowed.keeps.handle
      simp only [FIL.handle, Prod.mk.injEq] at hhandle
      exact hhandle.2.2.2.1
    rw [if_neg hzero, hrun, kernel_ok_bind]
    dsimp only
    rw [if_neg (not_not.mpr rfl), hbuffer, kernel_ok_bind]
    dsimp only
    rw [if_neg (not_not.mpr rfl)]
    refine ⟨endSeek fp₂, v₂, l₁, rfl, h.seeked hopen (hend ▸ le_max_left _ _) ?_ (fun i hi => ?_) (fun hlt => ?_)
      (fun hwrite hlt => ?_), hfollowed.step.trans hstep (fun x hx => hfollowed.longer.subset hx) (fun x hx => hx),
      hfollowed.longer, hopen, hhandle.trans hkeeps'.handle, fun hclean => ?_⟩
    · rw [hend, hpos]
      rcases hreached with heq | ⟨hwrite, -, hlt, heq⟩
      · omega
      · have := hread (hwrite₁ ▸ hwrite)
        rw [hfollowed.step.layout] at heq
        omega
    · rw [hsame, hbyte, hfollowed.same i (by omega)]
    · rw [hend] at hlt ⊢
      have hwrite : fp.FA_WRITE = true := hmode'.resolve_right fun hle => by
        rcases hreached with heq | ⟨-, -, hlt, -⟩ <;> omega
      have := hread hwrite
      refine ⟨hwrite, ?_⟩
      rcases hreached with heq | ⟨-, -, hlt, -⟩ <;> omega
    · rw [hend] at hlt
      have := hread hwrite
      rcases hreached with heq | ⟨-, hfull, -⟩
      · omega
      · exact hfree.trans hfull
    · -- the chain of a file that has not been extended begins where it did
      obtain ⟨hclean, hle⟩ := hmark hclean
      refine ⟨hkeeps'.written.symm.trans hclean, ?_, hend.trans (max_eq_left hle)⟩
      rw [hopen.org, h.org]
      cases l with
      | nil =>
        rw [List.length_nil, Nat.zero_mul, Nat.zero_mul] at hsize
        have hnone : l₁.length * (v₁.layout.csize * 512) = 0 := by
          rw [← Nat.mul_assoc]
          omega
        have hcsize := hfollowed.step.ready.sound.wellFormed.csize_pos
        rw [List.length_eq_zero_iff.mp ((Nat.mul_eq_zero.mp hnone).resolve_right (by omega))]
      | cons a l => exact headD_of_initial hfollowed.longer List.mem_cons_self

end KaushOS.Fat
