import KaushOS.Fs.FileRead

/-! # Writing a file (`kern/fs/ff.c`)

`f_write` puts bytes at the position of the file and stretches the chain where they go behind its end. It
stops early only when no cluster is free.

* **`FileAt.writeCluster`** — the cluster of the position, which may be a new one.
* **`FileAt.writeChunk`** — what one round of the loop writes.
* **`FileOpen.fWrite`** — what the function writes. -/

namespace KaushOS.Fat

open LinkedChain WriteBack Streams

variable {v v' : Volume} {c k n s cc sect fuel : Nat} {l l' : List Nat} {S : Set Nat} {fp fp' : FIL}
  {wbuff bs : List UInt8}

/-! ## The cluster of the position -/

/-- **The chain is stretched** for the position, where it is not long enough. -/
theorem FileAt.stretchCluster (h : FileAt S v fp l) (hready : v.Ready S) (hbound : fp.fptr % 512 = 0)
    (hmod : fp.fptr / 512 % v.layout.csize = 0) :
    ∃ r fp' v' l', Fat.stretchCluster fp v = .ok (r, fp', v') ∧ fp' = { fp with org_clust := l'.headD 0 }
      ∧ FileStep S v v' l l' ∧ v.SameData S v' ∧ v'.HasChain l' ∧ l <+: l'
      ∧ (r = 0 ∧ l' = l ∧ v'.free = ∅ ∨ r ∈ S ∧ l'[fp.fptr / 512 / v.layout.csize]? = some r) := by
  have horg : fp.org_clust = l.headD 0 := h.org
  have hself : fp = { fp with org_clust := l.headD 0 } := by rw [← horg]
  unfold Fat.stretchCluster
  by_cases hzero : fp.fptr = 0
  · have hplace : fp.fptr / 512 / v.layout.csize = 0 := by simp [hzero]
    rw [if_pos hzero, hplace]
    cases l with
    | nil =>
      obtain ⟨r, v', l', hrun, hstep, hsame, hchain, hinitial, hr⟩ :=
        hready.createChain h.chain h.owned (.inl ⟨rfl, rfl, rfl⟩)
      have hhead : l'.headD 0 = r := by
        rcases hr with ⟨hr, hl, -⟩ | ⟨-, hr⟩
        · rw [hl, hr]
          rfl
        · rw [List.headD_eq_head?_getD, List.head?_eq_getElem?, hr, Option.getD_some]
      have hnone : fp.org_clust = 0 := horg
      rw [if_pos hnone, hrun, kernel_ok_bind]
      exact ⟨r, _, v', l', rfl, by rw [hhead], hstep, hsame, hchain, hinitial,
        hr.imp_left fun hr => ⟨hr.1, hr.2.1, hr.2.2.2⟩⟩
    | cons a l =>
      have hne : fp.org_clust ≠ 0 := by
        have := (h.chain.used a List.mem_cons_self).1.1
        rw [horg, List.headD_cons]
        omega
      rw [if_neg hne]
      exact ⟨fp.org_clust, fp, v, a :: l, rfl, hself, hready.refl_step _, fun _ _ _ _ => rfl, h.chain,
        List.prefix_rfl, .inr ⟨horg ▸ h.owned a List.mem_cons_self, by rw [horg]; rfl⟩⟩
  · have hsucc : (fp.fptr / 512 - 1) / v.layout.csize + 1 = fp.fptr / 512 / v.layout.csize :=
      place_of_eq hmod (by omega)
    have hcurr := h.curr (Nat.pos_of_ne_zero hzero)
    rw [pred_div_of_mod hbound] at hcurr
    obtain ⟨r, v', l', hrun, hstep, hsame, hchain, hinitial, hr⟩ :=
      hready.createChain h.chain h.owned (.inr ⟨_, hsucc.symm, hcurr⟩)
    have hhead : l'.headD 0 = l.headD 0 := by
      obtain ⟨m, rfl⟩ := hinitial
      cases l with
      | nil => exact absurd hcurr (by simp)
      | cons a l => rfl
    rw [if_neg hzero, hrun, kernel_ok_bind]
    exact ⟨r, fp, v', l', rfl, hhead.symm ▸ hself, hstep, hsame, hchain, hinitial,
      hr.imp_left fun hr => ⟨hr.1, hr.2.1, hr.2.2.2⟩⟩

/-- **`f_write` finds the cluster of its position**, or no cluster is free. -/
theorem FileAt.writeCluster (h : FileAt S v fp l) (hready : v.Ready S) (hbound : fp.fptr % 512 = 0) :
    ∃ progress fp' v' l', Fat.writeCluster fp v = .ok (progress, fp', v') ∧ fp.Keeps fp' ∧ fp'.fptr = fp.fptr
      ∧ FileStep S v v' l l' ∧ l <+: l' ∧ FileData S v' fp' l'
      ∧ (∀ i < l.length * v.layout.csize * 512, fileByte v' fp' l' i = fileByte v fp l i)
      ∧ (progress = .full ∧ v'.free = ∅ ∧ FileAt S v' fp' l'
        ∨ progress = .wrote 0 ∧ l'[fp.fptr / 512 / v.layout.csize]? = some fp'.curr_clust) := by
  by_cases hcsect : fp.csect v ≠ 0
  · have hmod : fp.fptr / 512 % v.layout.csize ≠ 0 := by rwa [← FIL.csect_eq hready]
    have hpos : 0 < fp.fptr := by
      by_contra hzero
      exact hmod (by rw [Nat.eq_zero_of_not_pos hzero, Nat.zero_div, Nat.zero_mod])
    refine ⟨.wrote 0, fp, v, l, ?_, .refl fp, rfl, hready.refl_step l, List.prefix_rfl, h.toFileData, fun _ _ => rfl,
      .inr ⟨rfl, ?_⟩⟩
    · rw [Fat.writeCluster, if_pos hcsect]
      rfl
    · rw [← h.curr hpos, pred_div_of_mod hbound, place_of_ne hmod]
  · have hmod : fp.fptr / 512 % v.layout.csize = 0 := by rw [← FIL.csect_eq hready]; exact not_not.mp hcsect
    obtain ⟨r, fp₁, v', l', hrun, hfp₁, hstep, hsame, hchain, hinitial, hr⟩ := h.stretchCluster hready hbound hmod
    have hptr : fp₁.fptr = fp.fptr := by rw [hfp₁]
    have hkeeps : fp.Keeps fp₁ := by
      rw [hfp₁]
      exact ⟨rfl, rfl, rfl, fun hdirty => hdirty⟩
    rw [Fat.writeCluster, if_neg hcsect, hrun, kernel_ok_bind]
    rcases hr with ⟨rfl, rfl, hfree⟩ | ⟨hr, hget⟩
    · obtain ⟨hdata, hbyte⟩ := h.toFileData.onward hstep.toDataStep hsame hready hchain hinitial fp.curr_clust
      have hfp : { fp with org_clust := l'.headD 0, curr_clust := fp.curr_clust } = fp₁ := by rw [hfp₁]
      rw [hfp] at hdata hbyte
      refine ⟨.full, fp₁, v', l', rfl, hkeeps, hptr, hstep, hinitial, hdata, hbyte, .inl ⟨rfl, hfree, hdata, ?_, ?_⟩⟩
      · rw [hptr, hstep.layout, hfp₁]
        exact h.curr
      · rw [hptr]
        exact fun hne => absurd hbound hne
    · obtain ⟨hdata, hbyte⟩ := h.toFileData.onward hstep.toDataStep hsame hready hchain hinitial r
      have hfp : { fp with org_clust := l'.headD 0, curr_clust := r } = { fp₁ with curr_clust := r } := by rw [hfp₁]
      rw [hfp] at hdata hbyte
      obtain ⟨htwo, -, hsmall⟩ := hready.cluster_lt hr
      refine ⟨.wrote 0, { fp₁ with curr_clust := r }, v', l', ?_,
        ⟨hkeeps.handle, hkeeps.fsize, hkeeps.written, hkeeps.dirty⟩, hptr, hstep, hinitial, hdata, hbyte, .inr ⟨rfl, hget⟩⟩
      dsimp only
      rw [if_neg (by omega), if_neg (by omega), if_neg (by omega)]
      rfl

/-! ## The rounds -/

/-- **What has been written by a round of `f_write`**, and what has become of the file. -/
structure WriteStep (S : Set Nat) (v : Volume) (fp : FIL) (l : List Nat) (bytes : List UInt8) (v' : Volume) (fp' : FIL)
    (l' : List Nat) : Prop where
  step : FileStep S v v' l l'
  longer : l <+: l'
  handle : fp'.handle = fp.handle
  fsize : fp'.fsize = fp.fsize
  ptr : fp'.fptr = fp.fptr
  at' : FileAt S v' { fp' with fptr := fp.fptr + bytes.length } l'
  new : ∀ i (hi : i < bytes.length), fileByte v' fp' l' (fp.fptr + i) = bytes[i]
  old : ∀ i < max fp.fsize fp.fptr, i < fp.fptr ∨ fp.fptr + bytes.length ≤ i →
    fileByte v' fp' l' i = fileByte v fp l i

/-- What has been prepared before bytes are written. -/
theorem WriteStep.prepared {v₁ : Volume} {fp₁ : FIL} {l₁ : List Nat} (hstep : FileStep S v v₁ l l₁) (hlonger : l <+: l₁)
    (hhandle : fp₁.handle = fp.handle) (hfsize : fp₁.fsize = fp.fsize) (hptr : fp₁.fptr = fp.fptr)
    (hbyte : ∀ i < max fp.fsize fp.fptr, fileByte v₁ fp₁ l₁ i = fileByte v fp l i)
    (h : WriteStep S v₁ fp₁ l₁ bs v' fp' l') : WriteStep S v fp l bs v' fp' l' where
  step := hstep.trans h.step (fun _ hx => hlonger.subset hx) fun _ hx => h.longer.subset hx
  longer := hlonger.trans h.longer
  handle := h.handle.trans hhandle
  fsize := h.fsize.trans hfsize
  ptr := h.ptr.trans hptr
  at' := hptr ▸ h.at'
  new i hi := hptr ▸ h.new i hi
  old i hi hout := by
    rw [h.old i (by rwa [hfsize, hptr]) (by rwa [hptr]), hbyte i hi]

/-- The bytes that a caller gives for a sector. -/
theorem bufferSector_eq {i : Nat} (hi : i < wbuff.length) : bufferSector wbuff (i / 512) (i % 512) = wbuff[i] := by
  rw [bufferSector, Nat.div_add_mod, List.getD_eq_getElem?_getD, List.getElem?_eq_getElem hi, Option.getD_some]

/-- **Whole sectors are written**, past the buffer. -/
theorem FileData.writeDirect (h : FileData S v fp l) (hready : v.Ready S) (hclean : fp.FA__DIRTY = false)
    (hbound : fp.fptr % 512 = 0) (hcurr : l[fp.fptr / 512 / v.layout.csize]? = some fp.curr_clust) (hcc : 0 < cc)
    (hin : fp.csect v + cc ≤ v.layout.csize) (hlen : 512 * cc ≤ wbuff.length) :
    ∃ fp' v', Fat.writeDirect wbuff (v.layout.sectorAt l (fp.fptr / 512)) cc fp v = .ok (.wrote (512 * cc), fp', v')
      ∧ WriteStep S v fp l (wbuff.take (512 * cc)) v' fp' l := by
  obtain ⟨-, hk, -⟩ := h.sect_eq hready hcurr
  rw [FIL.csect_eq hready] at hin
  have hplace : fp.fptr / 512 + (cc - 1) < l.length * v.layout.csize := by
    have hdiv : (fp.fptr / 512 + (cc - 1)) / v.layout.csize = fp.fptr / 512 / v.layout.csize :=
      add_div_of_mod_lt (by omega)
    have hlt := (List.getElem?_eq_some_iff.mp hcurr).1
    rw [← hdiv] at hlt
    exact (Nat.div_lt_iff_lt_mul hready.sound.wellFormed.csize_pos).mp hlt
  have hsector : ∀ j < cc, v.layout.sectorAt l (fp.fptr / 512 + j) = v.layout.sectorAt l (fp.fptr / 512) + j :=
    fun j hj => FatLayout.sectorAt_add (by omega)
  have hrange : ∀ q < l.length * v.layout.csize,
      (v.layout.sectorAt l (fp.fptr / 512) ≤ v.layout.sectorAt l q
        ∧ v.layout.sectorAt l q - v.layout.sectorAt l (fp.fptr / 512) < cc)
      ↔ fp.fptr / 512 ≤ q ∧ q - fp.fptr / 512 < cc := fun q hq => by
    constructor
    · rintro ⟨hle, hlt⟩
      have heq := hsector _ hlt
      rw [Nat.add_sub_cancel' hle] at heq
      have hsame := h.sectorAt_inj hready (by omega) hq heq
      omega
    · rintro ⟨hle, hlt⟩
      have heq := hsector _ hlt
      rw [Nat.add_sub_cancel' hle] at heq
      omega
  have hlt : ∀ j < cc, v.layout.sectorAt l (fp.fptr / 512) + j < 2 ^ 28 := fun j hj =>
    hsector j hj ▸ h.sectorAt_lt hready (by omega)
  have hanswers : ∀ j < cc, v.disk.Answers (v.layout.sectorAt l (fp.fptr / 512) + j) := fun j hj =>
    hsector j hj ▸ h.answers hready (by omega)
  have hcluster : ∀ j < cc, ∃ c ∈ l, v.layout.InCluster c (v.layout.sectorAt l (fp.fptr / 512) + j) := fun j hj => by
    obtain ⟨c, hc, -, hin⟩ := h.inCluster hready (by omega : fp.fptr / 512 + j < l.length * v.layout.csize)
    exact ⟨c, hc, hsector j hj ▸ hin⟩
  generalize hsect : v.layout.sectorAt l (fp.fptr / 512) = sect at *
  let disk : Disk :=
    { v.disk with sector := storeSectors v.disk.sector sect ((List.range cc).map (bufferSector wbuff)) }
  have hstore : ∀ s, disk.sector s
      = if sect ≤ s ∧ s - sect < cc then bufferSector wbuff (s - sect) else v.disk.sector s :=
    storeSectors_range v.disk.sector (bufferSector wbuff) sect cc
  have hwrite : diskWrite v.disk ((List.range cc).map (bufferSector wbuff)) sect = .ok (.RES_OK, disk) :=
    diskWrite_of_answers hready.sound.is_ata fun j hj => hanswers j (by simpa using hj)
  have hsame : v.disk.Same disk := ⟨rfl, rfl, rfl⟩
  have hothers : ∀ s, (∀ c ∈ l, ¬ v.layout.InCluster c s) → disk.sector s = v.disk.sector s := fun s hs => by
    rw [hstore, if_neg]
    rintro ⟨hle, hlt⟩
    obtain ⟨c, hc, hin⟩ := hcluster _ hlt
    exact hs c hc (by rwa [Nat.add_sub_cancel' hle] at hin)
  obtain ⟨hstep, hfat⟩ := hready.disk_step hsame h.owned hothers
  have hdsect := h.dsect_lt hready
  have hfirst := hlt 0 hcc
  have hlast := hlt (cc - 1) (by omega)
  have hbuffer := FIL.bufferPlace_lt hdsect (by omega : sect < 2 ^ 28) (by omega : cc ≤ 2 ^ 28)
  -- the buffer holds what is on the disk, as before
  obtain ⟨fp', hrun, hfp', hheld⟩ : ∃ fp', Fat.writeDirect wbuff sect cc fp v = .ok (.wrote (512 * cc), fp', { v with disk })
      ∧ fp' = { fp with buf := fp'.buf } ∧ (fp.dsect ≠ 0 → disk.sector fp.dsect = fp'.buf) := by
    simp only [Fat.writeDirect, hwrite, kernel_ok_bind, ne_eq, not_true_eq_false, if_false]
    by_cases hin : fp.bufferPlace sect < cc
    · obtain ⟨hle, hbelow⟩ := hbuffer.mp hin
      rw [if_pos hin]
      refine ⟨_, rfl, ?_, fun _ => ?_⟩
      · rw [← hclean]
      · rw [hstore, if_pos ⟨hle, hbelow⟩, FIL.bufferPlace_eq hdsect (by omega) hle]
    · rw [if_neg hin]
      refine ⟨fp, rfl, rfl, fun hne => ?_⟩
      rw [hstore, if_neg fun hp => hin (hbuffer.mpr hp)]
      exact h.coherent hclean _ (FIL.slot_key hne)
  have hsect' : fp'.dsect = fp.dsect := by rw [hfp']
  have hptr' : fp'.fptr = fp.fptr := by rw [hfp']
  have hclean' : fp'.FA__DIRTY = false := by rw [hfp']; exact hclean
  have hlen' : (wbuff.take (512 * cc)).length = 512 * cc := by rw [List.length_take, min_eq_left hlen]
  have hdata : FileData S { v with disk } fp' l := by
    refine ⟨h.chain.congr rfl fun x hx => hfat x (h.chain.used x hx).1, h.owned, ?_, ?_, ?_, ?_, fun hdirty => ?_,
      fun _ j hj => ?_⟩
    · rw [hfp']
      exact h.org
    · rw [hfp']
      exact h.size
    · rw [hfp']
      exact h.pos
    · rw [hsect']
      exact h.buffer
    · exact absurd (hclean'.symm.trans hdirty) Bool.false_ne_true
    · have hj : (if fp'.dsect = 0 then none else some fp'.dsect) = some j := hj
      rw [hsect'] at hj
      split at hj
      · cases hj
      · rename_i hne
        cases hj
        exact hheld hne
  have hbyte : ∀ i, fileByte { v with disk } fp' l i = disk.sector (v.layout.sectorAt l (i / 512)) (i % 512) := fun i => by
    rw [fileByte, hdata.seen_clean hclean']
    rfl
  have hplace' : (fp'.fptr + 512 * cc - 1) / 512 = fp.fptr / 512 + (cc - 1) := by omega
  have hat : FileAt S { v with disk } { fp' with fptr := fp'.fptr + 512 * cc } l := by
    refine hdata.advance ?_ ?_ ?_ fun hmod => ?_
    · rw [hptr', hfp']
      exact hcurr
    · rw [hplace', hptr']
      have hless : fp.fptr / 512 % v.layout.csize + (cc - 1) < v.layout.csize := by omega
      exact add_div_of_mod_lt hless
    · show fp'.fptr + 512 * cc ≤ l.length * v.layout.csize * 512
      omega
    · omega
  refine ⟨fp', { v with disk }, hrun, hstep, List.prefix_rfl, by rw [hfp']; rfl, by rw [hfp'], hptr', ?_,
    fun i hi => ?_, fun i hi hout => ?_⟩
  · rw [hlen', ← hptr']
    exact hat
  · rw [hlen'] at hi
    have hj : i / 512 < cc := by omega
    rw [hbyte, show (fp.fptr + i) / 512 = fp.fptr / 512 + i / 512 by omega, hsector _ hj, hstore,
      if_pos ⟨Nat.le_add_right _ _, by omega⟩, Nat.add_sub_cancel_left, show (fp.fptr + i) % 512 = i % 512 by omega,
      bufferSector_eq (by omega), List.getElem_take]
  · rw [hlen'] at hout
    have hsize := h.size
    have hpos := h.pos
    have hq : i / 512 < l.length * v.layout.csize := by omega
    rw [hbyte, hstore, if_neg fun hp => ?_, fileByte, h.seen_clean hclean]
    have := (hrange _ hq).mp hp
    omega

/-- The sector of a position in the file. -/
theorem FileData.sectorAt_eq_iff {i : Nat} (h : FileData S v fp l) (hready : v.Ready S)
    (hk : k < l.length * v.layout.csize) (hi : i < l.length * v.layout.csize * 512) :
    v.layout.sectorAt l (i / 512) = v.layout.sectorAt l k ↔ i / 512 = k :=
  ⟨h.sectorAt_inj hready (by omega) hk, fun heq => by rw [heq]⟩

/-- **Bytes are put into the buffer**, which holds the sector of the position. -/
theorem FileData.putPartial (h : FileData S v { fp with FA__DIRTY := true } l) (hready : v.Ready S)
    (hne : 0 < wbuff.length) (hcurr : l[fp.fptr / 512 / v.layout.csize]? = some fp.curr_clust)
    (hsect : fp.dsect = v.layout.sectorAt l (fp.fptr / 512)) :
    ∃ n fp', Fat.putPartial wbuff fp = (.wrote n, fp') ∧ 0 < n ∧ n ≤ wbuff.length
      ∧ WriteStep S v { fp with FA__DIRTY := true } l (wbuff.take n) v fp' l := by
  obtain ⟨n, hn⟩ : ∃ n, n = min (512 - fp.fptr % 512) wbuff.length := ⟨_, rfl⟩
  obtain ⟨fp', hfp'⟩ : ∃ fp', fp' = (Fat.putPartial wbuff fp).2 := ⟨_, rfl⟩
  have hk : fp.fptr / 512 < l.length * v.layout.csize :=
    (Nat.div_lt_iff_lt_mul hready.sound.wellFormed.csize_pos).mp (List.getElem?_eq_some_iff.mp hcurr).1
  have hdsect : fp.dsect ≠ 0 := hsect ▸ hready.sound.wellFormed.sectorAt_ne_zero
  have hlen : (wbuff.take n).length = n := by rw [List.length_take]; omega
  have hsect' : fp'.dsect = fp.dsect := by rw [hfp']; rfl
  have hptr' : fp'.fptr = fp.fptr := by rw [hfp']; rfl
  have hbuf : ∀ i, fp'.buf i = if fp.fptr % 512 ≤ i ∧ i < fp.fptr % 512 + n then wbuff.getD (i - fp.fptr % 512) 0
      else fp.buf i := fun i => by
    rw [hfp', hn]
    rfl
  have hbyte : ∀ i < l.length * v.layout.csize * 512, fileByte v fp' l i
      = if i / 512 = fp.fptr / 512 then fp'.buf (i % 512) else v.disk.sector (v.layout.sectorAt l (i / 512)) (i % 512) :=
    fun i hi => by
      by_cases heq : i / 512 = fp.fptr / 512
      · rw [if_pos heq, fileByte, heq, ← hsect, ← hsect', FIL.seen_dsect (hsect'.symm ▸ hdsect)]
      · rw [if_neg heq, fileByte, FIL.seen_of_ne]
        rw [hsect', hsect]
        exact fun hsame => heq ((h.sectorAt_eq_iff hready hk hi).mp hsame)
  have hold : ∀ i < l.length * v.layout.csize * 512, fileByte v { fp with FA__DIRTY := true } l i
      = if i / 512 = fp.fptr / 512 then fp.buf (i % 512) else v.disk.sector (v.layout.sectorAt l (i / 512)) (i % 512) :=
    fun i hi => by
      by_cases heq : i / 512 = fp.fptr / 512
      · rw [if_pos heq, fileByte, heq, ← hsect]
        have hover : ({ fp with FA__DIRTY := true } : FIL).slot.seen v.disk.sector fp.dsect = fp.buf := FIL.seen_dsect hdsect
        exact congrFun hover _
      · rw [if_neg heq, fileByte, FIL.seen_of_ne]
        show v.layout.sectorAt l (i / 512) ≠ fp.dsect
        rw [hsect]
        exact fun hsame => heq ((h.sectorAt_eq_iff hready hk hi).mp hsame)
  have hdata : FileData S v fp' l := by
    rw [hfp']
    exact ⟨h.chain, h.owned, h.org, h.size, h.pos, h.buffer, h.loaded,
      fun hfalse => absurd hfalse.symm Bool.false_ne_true⟩
  have hat : FileAt S v { fp' with fptr := fp'.fptr + n } l := by
    refine hdata.advance ?_ ?_ ?_ fun hmod => ?_
    · rw [hptr', hcurr, hfp']
      rfl
    · rw [hptr', show (fp.fptr + n - 1) / 512 = fp.fptr / 512 by omega]
    · omega
    · rw [hptr', hsect', hsect, show (fp.fptr + n) / 512 = fp.fptr / 512 by omega]
  refine ⟨n, fp', ?_, by omega, by omega, hready.refl_step l, List.prefix_rfl, ?_, ?_, hptr', ?_, fun i hi => ?_,
    fun i hi hout => ?_⟩
  · rw [hfp', hn]
    rfl
  · rw [hfp']
    rfl
  · rw [hfp']
    rfl
  · rw [hlen, ← hptr']
    exact hat
  · rw [hlen] at hi
    show fileByte v fp' l (fp.fptr + i) = _
    rw [hbyte _ (by omega), if_pos (by omega), hbuf, if_pos (by omega),
      show (fp.fptr + i) % 512 - fp.fptr % 512 = i by omega, List.getD_eq_getElem?_getD, List.getElem_take,
      List.getElem?_eq_getElem (by omega), Option.getD_some]
  · rw [hlen] at hout
    have hsize : fp.fsize ≤ _ := h.size
    have hpos : fp.fptr ≤ _ := h.pos
    have hi : i < max fp.fsize fp.fptr := hi
    have hout : i < fp.fptr ∨ fp.fptr + n ≤ i := hout
    rw [hbyte _ (by omega), hold _ (by omega)]
    by_cases heq : i / 512 = fp.fptr / 512
    · rw [if_pos heq, if_pos heq, hbuf, if_neg (by omega)]
    · rw [if_neg heq, if_neg heq]

/-- **The buffer is taken** for the sector of the position; what is behind the end of the file may be anything. -/
theorem FileData.takeBuffer (h : FileData S v fp l) (hready : v.Ready S) (hclean : fp.FA__DIRTY = false)
    (hbound : fp.fptr % 512 = 0) (hk : fp.fptr / 512 < l.length * v.layout.csize) :
    ∃ fp', Fat.takeBuffer (v.layout.sectorAt l (fp.fptr / 512)) fp v = .ok (.FR_OK, fp')
      ∧ fp' = { fp with buf := fp'.buf, dsect := v.layout.sectorAt l (fp.fptr / 512) }
      ∧ FileData S v { fp' with FA__DIRTY := true } l
      ∧ ∀ i < max fp.fsize fp.fptr, fileByte v { fp' with FA__DIRTY := true } l i = fileByte v fp l i := by
  have hne : v.layout.sectorAt l (fp.fptr / 512) ≠ 0 := hready.sound.wellFormed.sectorAt_ne_zero
  unfold Fat.takeBuffer
  by_cases hedge : fp.fptr < fp.fsize
  · rw [if_pos hedge]
    obtain ⟨fp', hrun, hfp', hdata, hbyte⟩ := h.fill hready hclean hk
    refine ⟨fp', hrun, by rw [hfp'], ?_, fun i _ => hbyte i⟩
    exact ⟨hdata.chain, hdata.owned, hdata.org, hdata.size, hdata.pos, hdata.buffer, fun _ => by rw [hfp']; exact hne,
      fun hfalse => absurd hfalse.symm Bool.false_ne_true⟩
  · rw [if_neg hedge]
    refine ⟨_, rfl, rfl, ⟨h.chain, h.owned, h.org, h.size, h.pos, .inr ⟨_, hk, rfl⟩, fun _ => hne,
      fun hfalse => absurd hfalse.symm Bool.false_ne_true⟩, fun i hi => ?_⟩
    have hpos := h.pos
    rw [fileByte, fileByte, h.seen_clean hclean, FIL.seen_of_ne]
    exact fun hsame => by
      have := (h.sectorAt_eq_iff hready hk (by omega)).mp hsame
      omega

/-- **A round of `f_write` that fills the buffer.** -/
theorem FileData.writeBuffered (h : FileData S v fp l) (hready : v.Ready S) (hclean : fp.FA__DIRTY = false)
    (hbound : fp.fptr % 512 = 0) (hcurr : l[fp.fptr / 512 / v.layout.csize]? = some fp.curr_clust)
    (hne : 0 < wbuff.length) :
    ∃ n fp', Fat.writeBuffered wbuff (v.layout.sectorAt l (fp.fptr / 512)) fp v = .ok (.wrote n, fp', v)
      ∧ 0 < n ∧ n ≤ wbuff.length ∧ WriteStep S v fp l (wbuff.take n) v fp' l := by
  obtain ⟨-, hk, -⟩ := h.sect_eq hready hcurr
  obtain ⟨fp₁, htake, hfp₁, hdata, hbyte⟩ := h.takeBuffer hready hclean hbound hk
  have hptr : fp₁.fptr = fp.fptr := by rw [hfp₁]
  have hcurr₁ : l[fp₁.fptr / 512 / v.layout.csize]? = some fp₁.curr_clust := by rw [hptr, hcurr, hfp₁]
  have hsect₁ : fp₁.dsect = v.layout.sectorAt l (fp₁.fptr / 512) := by rw [hptr, hfp₁]
  obtain ⟨n, fp', hput, hpos, hle, hstep⟩ := hdata.putPartial hready hne hcurr₁ hsect₁
  refine ⟨n, fp', ?_, hpos, hle, WriteStep.prepared (hready.refl_step l) List.prefix_rfl ?_ ?_ ?_ ?_ hstep⟩
  · simp only [Fat.writeBuffered, htake, kernel_ok_bind, ne_eq, not_true_eq_false, if_false, hput]
    rfl
  · rw [hfp₁]
    rfl
  · rw [hfp₁]
  · exact hptr
  · exact hbyte

/-- **A round of `f_write` in the current cluster.** -/
theorem FileData.writeSector (h : FileData S v fp l) (hready : v.Ready S) (hbound : fp.fptr % 512 = 0)
    (hcurr : l[fp.fptr / 512 / v.layout.csize]? = some fp.curr_clust) (hne : 0 < wbuff.length) :
    ∃ n fp' v', Fat.writeSector wbuff (fp.csect v) fp v = .ok (.wrote n, fp', v')
      ∧ 0 < n ∧ n ≤ wbuff.length ∧ WriteStep S v fp l (wbuff.take n) v' fp' l := by
  obtain ⟨fp₁, v₁, hflush, hfp₁, hstep, hdata, hfs, hbyte⟩ := h.flush hready
  have hlayout : v₁.layout = v.layout := congrArg FATFS.toFatLayout hfs
  have hptr : fp₁.fptr = fp.fptr := by rw [hfp₁]
  have hclean : fp₁.FA__DIRTY = false := by rw [hfp₁]
  have hcsect : fp₁.csect v₁ = fp.csect v := by
    rw [FIL.csect_eq hready, FIL.csect_eq hstep.ready, hlayout, hptr]
  have hcurr₁ : l[fp₁.fptr / 512 / v₁.layout.csize]? = some fp₁.curr_clust := by rw [hptr, hlayout, hcurr, hfp₁]
  obtain ⟨hsect, -, hword⟩ := hdata.sect_eq hstep.ready hcurr₁
  rw [hcsect] at hword
  have hprepared : ∀ {n fp' v'}, WriteStep S v₁ fp₁ l (wbuff.take n) v' fp' l →
      WriteStep S v fp l (wbuff.take n) v' fp' l := fun hwritten =>
    hwritten.prepared hstep List.prefix_rfl (by rw [hfp₁]; rfl) (by rw [hfp₁]) hptr fun i _ => hbyte i
  rw [Fat.writeSector, hflush, kernel_ok_bind]
  dsimp only
  rw [if_neg (not_not.mpr rfl), if_neg hsect, hword]
  by_cases hdirect : wbuff.length / 512 = 0
  · obtain ⟨n, fp', hrun, hpos, hle, hwritten⟩ :=
      hdata.writeBuffered hstep.ready hclean (hptr.symm ▸ hbound) hcurr₁ hne
    rw [if_neg (not_not.mpr hdirect)]
    exact ⟨n, fp', v₁, hrun, hpos, hle, hprepared hwritten⟩
  · have hmod : fp.csect v < v₁.layout.csize := by
      rw [FIL.csect_eq hready, hlayout]
      exact Nat.mod_lt _ hready.sound.wellFormed.csize_pos
    obtain ⟨hcc, hcc', hin⟩ := clipCount_le hmod hdirect
    obtain ⟨fp', v', hrun, hwritten⟩ := hdata.writeDirect hstep.ready hclean (hptr.symm ▸ hbound) hcurr₁ hcc
      (hcsect.symm ▸ hin) (by omega : _ ≤ wbuff.length)
    rw [if_pos hdirect]
    exact ⟨_, fp', v', hrun, by omega, by omega, hprepared hwritten⟩

/-- **No cluster is free** for the position, and nothing has been written. -/
structure NoSpace (S : Set Nat) (v : Volume) (fp : FIL) (l : List Nat) (v' : Volume) (fp' : FIL) (l' : List Nat) :
    Prop where
  free : v'.free = ∅
  step : FileStep S v v' l l'
  longer : l <+: l'
  at' : FileAt S v' fp' l'
  keeps : fp.Keeps fp'
  ptr : fp'.fptr = fp.fptr
  same : ∀ i < max fp.fsize fp.fptr, fileByte v' fp' l' i = fileByte v fp l i

/-- **One round of `f_write`** writes bytes, or no cluster is free. -/
theorem FileAt.writeChunk (h : FileAt S v fp l) (hready : v.Ready S) (hne : 0 < wbuff.length) :
    ∃ progress fp' v' l', Fat.writeChunk wbuff fp v = .ok (progress, fp', v')
      ∧ (progress = .full ∧ NoSpace S v fp l v' fp' l'
        ∨ ∃ n, progress = .wrote n ∧ 0 < n ∧ n ≤ wbuff.length ∧ WriteStep S v fp l (wbuff.take n) v' fp' l') := by
  have hsize := h.size
  have hpos := h.pos
  by_cases hbound : fp.fptr % 512 = 0
  · obtain ⟨progress, fp₁, v₁, l₁, hrun, hkeeps, hptr, hstep, hinitial, hdata, hbyte, hcase⟩ :=
      h.writeCluster hready hbound
    have hbyte' : ∀ i < max fp.fsize fp.fptr, fileByte v₁ fp₁ l₁ i = fileByte v fp l i := fun i hi =>
      hbyte i (by omega)
    rw [Fat.writeChunk, if_neg (not_not.mpr hbound), hrun, kernel_ok_bind]
    rcases hcase with ⟨rfl, hfree, hat⟩ | ⟨rfl, hget⟩
    · exact ⟨.full, fp₁, v₁, l₁, if_pos (by decide), .inl ⟨rfl, hfree, hstep, hinitial, hat, hkeeps, hptr, hbyte'⟩⟩
    · have hcsect : fp₁.csect v₁ = fp.csect v := by
        rw [FIL.csect_eq hready, FIL.csect_eq hstep.ready, hstep.layout, hptr]
      obtain ⟨n, fp', v', hwrite, hfirst, hlast, hwritten⟩ :=
        hdata.writeSector hstep.ready (hptr.symm ▸ hbound) (by rw [hptr, hstep.layout, hget]) hne
      rw [hcsect] at hwrite
      refine ⟨.wrote n, fp', v', l₁, ?_, .inr ⟨n, rfl, hfirst, hlast,
        hwritten.prepared hstep hinitial hkeeps.handle hkeeps.fsize hptr hbyte'⟩⟩
      rw [← hwrite]
      exact if_neg (not_not.mpr rfl)
  · have hpred : (fp.fptr - 1) / 512 = fp.fptr / 512 := by omega
    have hcurr := h.curr (by omega)
    rw [hpred] at hcurr
    have hsect := h.sect hbound
    have hdsect : fp.dsect ≠ 0 := hsect ▸ hready.sound.wellFormed.sectorAt_ne_zero
    have hdata : FileData S v { fp with FA__DIRTY := true } l :=
      ⟨h.chain, h.owned, h.org, h.size, h.pos, h.buffer, fun _ => hdsect,
        fun hfalse => absurd hfalse.symm Bool.false_ne_true⟩
    obtain ⟨n, fp', hput, hfirst, hlast, hwritten⟩ := hdata.putPartial hready hne hcurr hsect
    refine ⟨.wrote n, fp', v, l, ?_, .inr ⟨n, rfl, hfirst, hlast,
      WriteStep.prepared (hready.refl_step l) List.prefix_rfl ?_ ?_ ?_ ?_ hwritten⟩⟩
    · rw [Fat.writeChunk, if_pos hbound, hput]
    · rfl
    · rfl
    · rfl
    · exact fun _ _ => rfl

/-! ## The function -/

/-- **The loop of `f_write`** writes all bytes, or as many as there is space for. -/
theorem FileAt.writeLoop (h : FileAt S v fp l) (hready : v.Ready S) (hsmall : fp.fptr + wbuff.length < 2 ^ 32)
    (hfuel : wbuff.length < fuel) :
    ∃ bw fp' v' l', Fat.writeLoop fuel wbuff fp v = .ok (.FR_OK, bw, fp', v') ∧ bw ≤ wbuff.length
      ∧ (bw < wbuff.length → v'.free = ∅) ∧ fileStream v' fp' l' = (fileStream v fp l).write (wbuff.take bw)
      ∧ FileStep S v v' l l' ∧ l <+: l' ∧ FileAt S v' fp' l' ∧ fp'.handle = fp.handle ∧ fp'.fsize = fp.fsize
      ∧ fp'.fptr = fp.fptr + bw := by
  induction fuel generalizing wbuff fp v l with
  | zero => exact absurd hfuel (Nat.not_lt_zero _)
  | succ fuel ih =>
    rw [Fat.writeLoop]
    by_cases hzero : wbuff.length = 0
    · rw [if_pos hzero]
      exact ⟨0, fp, v, l, rfl, Nat.zero_le _, fun hlt => absurd hlt (by omega), Stream.write_nil.symm,
        hready.refl_step l, List.prefix_rfl, h, rfl, rfl, rfl⟩
    obtain ⟨progress, fp₁, v₁, l₁, hrun, hcase⟩ := h.writeChunk hready (Nat.pos_of_ne_zero hzero)
    rw [if_neg hzero, hrun, kernel_ok_bind]
    rcases hcase with ⟨rfl, hnone⟩ | ⟨n, rfl, hfirst, hlast, hwritten⟩
    · refine ⟨0, fp₁, v₁, l₁, rfl, Nat.zero_le _, fun _ => hnone.free, ?_, hnone.step, hnone.longer, hnone.at',
        hnone.keeps.handle, hnone.keeps.fsize, hnone.ptr⟩
      rw [List.take_zero, Stream.write_nil]
      exact fileStream_congr hnone.keeps.fsize hnone.ptr hnone.same
    · have hlen : (wbuff.take n).length = n := by rw [List.length_take, min_eq_left hlast]
      have hword : dword (fp₁.fptr + n) = fp.fptr + n := by
        rw [hwritten.ptr, dword_of_lt (by omega)]
      have hat : FileAt S v₁ { fp₁ with fptr := fp.fptr + n } l₁ := hlen ▸ hwritten.at'
      have hstream : fileStream v₁ { fp₁ with fptr := fp.fptr + n } l₁
          = (fileStream v fp l).write (wbuff.take n) := by
        refine fileStream_write ?_ hwritten.fsize hwritten.new hwritten.old
        rw [hlen]
      have hdrop : (wbuff.drop n).length = wbuff.length - n := List.length_drop
      obtain ⟨bw, fp', v', l', hrun', hle, hfull, hstream', hstep', hinitial', hat', hhandle', hfsize', hptr'⟩ :=
        ih hat hwritten.step.ready (by rw [hdrop]; show fp.fptr + n + _ < _; omega) (by omega)
      rw [hdrop] at hle hfull
      dsimp only
      rw [hword, hrun', kernel_ok_bind]
      refine ⟨n + bw, fp', v', l', rfl, by omega, fun hlt => hfull (by omega), ?_,
        hwritten.step.trans hstep' (fun _ hx => hwritten.longer.subset hx) (fun _ hx => hinitial'.subset hx),
        hwritten.longer.trans hinitial', hat', hhandle'.trans hwritten.handle, hfsize'.trans hwritten.fsize, ?_⟩
      · rw [hstream', hstream, ← Stream.write_append, ← List.take_add]
      · rw [hptr', Nat.add_assoc]

/-- **`f_write` writes the bytes over those of the file**, from its position on, and behind its end; it writes less than
it is asked for only when no cluster is free, or when the file would reach 4 GB. -/
theorem FileOpen.fWrite (h : FileOpen S v fp l) (hready : v.Ready S) (hmode : fp.FA_WRITE = true)
    (hlen : wbuff.length < 2 ^ 32) :
    ∃ bw fp' v' l', Fat.fWrite wbuff fp v = .ok (.FR_OK, bw, fp', v') ∧ bw ≤ wbuff.length
      ∧ (bw < wbuff.length → v'.free = ∅ ∨ 2 ^ 32 ≤ fp.fsize + wbuff.length)
      ∧ fileStream v' fp' l' = (fileStream v fp l).write (wbuff.take bw)
      ∧ FileStep S v v' l l' ∧ l <+: l' ∧ FileOpen S v' fp' l' ∧ fp'.handle = fp.handle ∧ fp.Marked fp' := by
  have hsettled := h.settled
  have hsmall := h.small
  obtain ⟨bytes, hbytes⟩ : ∃ bytes, bytes = if dword (fp.fsize + wbuff.length) < fp.fsize then [] else wbuff := ⟨_, rfl⟩
  have hsum : fp.fsize + bytes.length < 2 ^ 32 := by
    rw [hbytes]
    unfold dword
    split
    · exact hsmall
    · omega
  obtain ⟨bw, fp₁, v', l', hrun, hle, hfull, hstream, hstep, hlonger, hat, hhandle, hfsize, hptr⟩ :=
    h.writeLoop hready (by omega : fp.fptr + bytes.length < 2 ^ 32) (Nat.lt_succ_self _)
  have hmax : (endWrite fp₁).fsize = max fp₁.fsize fp₁.fptr := by
    show (if fp₁.fsize < fp₁.fptr then fp₁.fptr else fp₁.fsize) = _
    split <;> omega
  have hend : fileStream v' (endWrite fp₁) l' = fileStream v' fp₁ l' := by
    ext1
    · simp only [fileStream, ofFun, hmax]
      rw [show (endWrite fp₁).fptr = fp₁.fptr from rfl, max_eq_left (le_max_right _ _)]
      rfl
    · rfl
  have htake : bytes.take bw = wbuff.take bw := by
    rw [hbytes] at hle ⊢
    split at hle
    · have hzero : bw = 0 := Nat.le_zero.mp hle
      rw [hzero, List.take_zero, List.take_zero]
    · rw [if_neg (by assumption)]
  have hclaim := hhandle
  simp only [FIL.handle, Prod.mk.injEq] at hclaim
  obtain ⟨hfs, hid, -, -, herror, -, -⟩ := hclaim
  have hsize := hat.size
  have hpos := hat.pos
  have hopen : FileOpen S v' (endWrite fp₁) l' := by
    refine ⟨⟨⟨hat.chain, hat.owned, hat.org, ?_, hat.pos, hat.buffer, hat.loaded, hat.coherent⟩, hat.curr, hat.sect⟩,
      hfs.trans h.fs, ?_, herror.trans h.error, ?_, ?_, fun _ => rfl⟩
    · rw [hmax]
      omega
    · rw [hstep.layout, ← h.id]
      exact hid
    · rw [hmax]
      exact le_max_right _ _
    · rw [hmax]
      omega
  refine ⟨bw, endWrite fp₁, v', l', ?_, ?_, fun hlt => ?_, ?_, hstep, hlonger, hopen, hhandle,
    fun hclean => absurd hclean.symm Bool.false_ne_true⟩
  · simp only [Fat.fWrite, h.validate hready, ne_eq, not_true_eq_false, if_false, h.error, hmode,
      Bool.false_eq_true, Bool.true_eq_false, ← hbytes, hrun, kernel_ok_bind]
    rfl
  · rw [hbytes] at hle
    split at hle
    · exact hle.trans (Nat.zero_le _)
    · exact hle
  · by_cases hover : dword (fp.fsize + wbuff.length) < fp.fsize
    · right
      unfold dword at hover
      omega
    · rw [if_neg hover] at hbytes
      exact .inl (hfull (hbytes ▸ hlt))
  · rw [hend, hstream, htake]

/-- A file that has not been opened for writing. -/
theorem FileOpen.fWrite_denied (h : FileOpen S v fp l) (hready : v.Ready S) (hmode : fp.FA_WRITE = false)
    (wbuff : List UInt8) : Fat.fWrite wbuff fp v = .ok (.FR_DENIED, 0, fp, v) := by
  rw [Fat.fWrite, h.validate hready]
  dsimp only
  rw [if_neg (not_not.mpr rfl), if_neg (by rw [h.error]; decide), if_pos hmode]
  rfl

end KaushOS.Fat
