import KaushOS.Fs.FileData

/-! # Reading a file (`kern/fs/ff.c`)

`f_read` gives the bytes of the file from its position on. What is in whole sectors it reads past the
buffer, which may be newer than the disk.

* **`FileAt.readChunk`** — what one round of the loop transfers.
* **`FileAt.fRead`** — what the function reads. -/

namespace KaushOS.Fat

open LinkedChain WriteBack Streams

variable {v v' : Volume} {c k n s cc sect btr fuel : Nat} {l l' : List Nat} {S : Set Nat} {fp fp' : FIL}

/-! ## The cluster of a position -/

/-- The place of a position in a chain is the one before it, but at the boundary of a cluster. -/
theorem place_of_ne {q b : Nat} (h : q % b ≠ 0) : (q - 1) / b = q / b := by
  obtain ⟨a, rfl⟩ : ∃ a, q = a + 1 := ⟨q - 1, by have : q ≠ 0 := fun hq => h (by rw [hq, Nat.zero_mod]); omega⟩
  rw [Nat.succ_div, if_neg fun hdvd => h (Nat.mod_eq_zero_of_dvd hdvd), Nat.add_sub_cancel]
  rfl

theorem place_of_eq {q b : Nat} (h : q % b = 0) (hq : 0 < q) : (q - 1) / b + 1 = q / b := by
  obtain ⟨a, rfl⟩ : ∃ a, q = a + 1 := ⟨q - 1, by omega⟩
  rw [Nat.succ_div, if_pos (Nat.dvd_of_mod_eq_zero h), Nat.add_sub_cancel]

/-- The sector before a position at the boundary of sectors. -/
theorem pred_div_of_mod {p : Nat} (h : p % 512 = 0) : (p - 1) / 512 = p / 512 - 1 := by omega

/-- **The same data, on another chain** that begins with the old one. -/
theorem FileData.onward (h : FileData S v fp l) (hstep : DataStep S v v' l l') (hsame : v.SameData S v')
    (hready : v.Ready S) (hchain : v'.HasChain l') (hinitial : l <+: l') (c : Nat) :
    FileData S v' { fp with org_clust := l'.headD 0, curr_clust := c } l'
      ∧ ∀ i < l.length * v.layout.csize * 512,
        fileByte v' { fp with org_clust := l'.headD 0, curr_clust := c } l' i = fileByte v fp l i := by
  have hlayout := hstep.layout
  have hlen := Nat.mul_le_mul_right v.layout.csize hinitial.length_le
  have hat : ∀ k < l.length * v.layout.csize, v'.layout.sectorAt l' k = v.layout.sectorAt l k := fun k hk => by
    rw [hlayout]
    exact FatLayout.sectorAt_initial hinitial hk
  refine ⟨⟨hchain, fun x hx => (hstep.taken x hx).elim (h.owned x) (hready.free x), rfl, ?_, ?_, ?_, h.loaded,
    h.coherent_same hready fun c hc => hsame c (h.owned c hc)⟩, fun i hi => ?_⟩
  · have := h.size
    rw [hlayout]
    exact this.trans (Nat.mul_le_mul_right 512 hlen)
  · have := h.pos
    rw [hlayout]
    exact this.trans (Nat.mul_le_mul_right 512 hlen)
  · refine h.buffer.imp_right ?_
    rintro ⟨k, hk, heq⟩
    exact ⟨k, hlayout.symm ▸ hk.trans_le hlen, heq.trans (hat k hk).symm⟩
  · have hk : i / 512 < l.length * v.layout.csize := Nat.div_lt_of_lt_mul (by rwa [Nat.mul_comm])
    exact h.byte_same hready (fun c hc => hsame c (h.owned c hc)) rfl hk (hat _ hk)

/-- **What reading does not change** in the file object. -/
structure FIL.Keeps (fp fp' : FIL) : Prop where
  handle : fp'.handle = fp.handle
  fsize : fp'.fsize = fp.fsize
  written : fp'.FA__WRITTEN = fp.FA__WRITTEN
  dirty : fp'.FA__DIRTY = true → fp.FA__DIRTY = true

theorem FIL.Keeps.refl (fp : FIL) : fp.Keeps fp := ⟨rfl, rfl, rfl, fun hdirty => hdirty⟩

theorem FIL.Keeps.trans {fp'' : FIL} (h : fp.Keeps fp') (h' : fp'.Keeps fp'') : fp.Keeps fp'' :=
  ⟨h'.handle.trans h.handle, h'.fsize.trans h.fsize, h'.written.trans h.written, h.dirty ∘ h'.dirty⟩

/-- **What has changed is marked** for `f_sync`. -/
def FIL.Marked (fp fp' : FIL) : Prop :=
  fp'.FA__WRITTEN = false → fp.FA__WRITTEN = false ∧ fp'.org_clust = fp.org_clust ∧ fp'.fsize = fp.fsize

/-- **`f_read` finds the cluster of its position.** -/
theorem FileAt.readCluster (h : FileAt S v fp l) (hready : v.Ready S) (hbound : fp.fptr % 512 = 0)
    (hlt : fp.fptr < l.length * v.layout.csize * 512) :
    ∃ fp' v', Fat.readCluster fp v = .ok (.FR_OK, fp', v') ∧ fp.Keeps fp' ∧ fp'.fptr = fp.fptr
      ∧ l[fp.fptr / 512 / v.layout.csize]? = some fp'.curr_clust ∧ FileStep S v v' l l ∧ FileData S v' fp' l
      ∧ ∀ i < l.length * v.layout.csize * 512, fileByte v' fp' l i = fileByte v fp l i := by
  have hL := hready.sound.wellFormed
  have hplace : fp.fptr / 512 / v.layout.csize < l.length :=
    (Nat.div_lt_iff_lt_mul hL.csize_pos).mpr (Nat.div_lt_of_lt_mul (by rwa [Nat.mul_comm 512]))
  have horg : fp.org_clust = l.headD 0 := h.org
  by_cases hcsect : fp.csect v ≠ 0
  · have hmod : fp.fptr / 512 % v.layout.csize ≠ 0 := by rwa [← FIL.csect_eq hready]
    have hpos : 0 < fp.fptr := by
      by_contra hzero
      exact hmod (by rw [Nat.eq_zero_of_not_pos hzero, Nat.zero_div, Nat.zero_mod])
    refine ⟨fp, v, ?_, .refl fp, rfl, ?_, hready.refl_step l, h.toFileData, fun _ _ => rfl⟩
    · rw [Fat.readCluster, if_pos hcsect]
      rfl
    · rw [← h.curr hpos, pred_div_of_mod hbound, place_of_ne hmod]
  · have hmod : fp.fptr / 512 % v.layout.csize = 0 := by rw [← FIL.csect_eq hready]; exact not_not.mp hcsect
    obtain ⟨v', hrun, hstep, hsame, hchain⟩ : ∃ v',
        followCluster fp v = .ok (l[fp.fptr / 512 / v.layout.csize], v') ∧ FileStep S v v' l l ∧ v.SameData S v'
          ∧ v'.HasChain l := by
      by_cases hzero : fp.fptr = 0
      · refine ⟨v, ?_, hready.refl_step l, fun _ _ _ _ => rfl, h.chain⟩
        simp only [followCluster, hzero, Nat.zero_div, if_true] at hplace ⊢
        rw [horg, List.headD_eq_head?_getD, List.head?_eq_getElem?, List.getElem?_eq_getElem hplace, Option.getD_some]
      · have hsucc : (fp.fptr / 512 - 1) / v.layout.csize + 1 = fp.fptr / 512 / v.layout.csize :=
          place_of_eq hmod (by omega)
        have hcurr := h.curr (Nat.pos_of_ne_zero hzero)
        rw [pred_div_of_mod hbound] at hcurr
        obtain ⟨hk, hget⟩ := List.getElem?_eq_some_iff.mp hcurr
        obtain ⟨v', hrun, hstep, hsame, hchain⟩ := hready.getFat h.chain hk (hsucc ▸ hplace)
        refine ⟨v', ?_, hstep, hsame, hchain⟩
        simp only [hsucc, hget] at hrun
        rw [followCluster, if_neg hzero, hrun]
    have hmem : l[fp.fptr / 512 / v.layout.csize] ∈ l := List.getElem_mem hplace
    obtain ⟨htwo, -, hsmall⟩ := hready.cluster_lt (h.owned _ hmem)
    have hself : { fp with org_clust := l.headD 0, curr_clust := l[fp.fptr / 512 / v.layout.csize] }
        = { fp with curr_clust := l[fp.fptr / 512 / v.layout.csize] } := by rw [← horg]
    obtain ⟨hdata, hbyte⟩ :=
      h.toFileData.onward hstep.toDataStep hsame hready hchain List.prefix_rfl l[fp.fptr / 512 / v.layout.csize]
    rw [hself] at hdata hbyte
    refine ⟨{ fp with curr_clust := l[fp.fptr / 512 / v.layout.csize] }, v', ?_,
      ⟨rfl, rfl, rfl, fun hdirty => hdirty⟩, rfl, List.getElem?_eq_getElem hplace, hstep, hdata, hbyte⟩
    simp only [Fat.readCluster, if_neg hcsect, hrun, kernel_ok_bind]
    rw [if_neg (by omega), if_neg (by omega)]
    rfl

/-! ## The rounds -/

/-- **The position moves on** within a cluster. -/
theorem FileData.advance (h : FileData S v fp l) (hcurr : l[fp.fptr / 512 / v.layout.csize]? = some fp.curr_clust)
    (hin : (fp.fptr + n - 1) / 512 / v.layout.csize = fp.fptr / 512 / v.layout.csize)
    (hpos : fp.fptr + n ≤ l.length * v.layout.csize * 512)
    (hsect : (fp.fptr + n) % 512 ≠ 0 → fp.dsect = v.layout.sectorAt l ((fp.fptr + n) / 512)) :
    FileAt S v { fp with fptr := fp.fptr + n } l :=
  ⟨⟨h.chain, h.owned, h.org, h.size, hpos, h.buffer, h.loaded, h.coherent⟩, fun _ => hin ▸ hcurr, hsect⟩

/-- **What is in the buffer** of a position: the bytes up to the end of the sector. -/
theorem pickPartial_eq (hsect : fp.dsect = v.layout.sectorAt l (fp.fptr / 512)) (hne : fp.dsect ≠ 0) :
    pickPartial btr fp
      = (List.range (min (512 - fp.fptr % 512) btr)).map fun i => fileByte v fp l (fp.fptr + i) := by
  refine List.map_congr_left fun i hi => ?_
  have hlt := List.mem_range.mp hi
  rw [fileByte, show (fp.fptr + i) / 512 = fp.fptr / 512 by omega, ← hsect, FIL.seen_dsect hne,
    show (fp.fptr + i) % 512 = fp.fptr % 512 + i by omega]

/-- The bytes of sectors, one after the other. -/
theorem flatMap_sectorBytes (f : Nat → Sector) (cc : Nat) :
    ((List.range cc).map f).flatMap sectorBytes = (List.range (512 * cc)).map fun i => f (i / 512) (i % 512) := by
  induction cc with
  | zero => rfl
  | succ cc ih =>
    rw [List.range_succ, List.map_append, List.flatMap_append, ih, Nat.mul_succ, List.range_add, List.map_append,
      List.map_singleton, List.flatMap_singleton, sectorBytes, List.map_map]
    refine congrArg _ (List.map_congr_left fun i hi => ?_)
    have hlt := List.mem_range.mp hi
    rw [Function.comp_apply, show (512 * cc + i) / 512 = cc by omega, show (512 * cc + i) % 512 = i by omega]

/-- **The place of the buffer** among the sectors of a direct transfer. -/
theorem FIL.bufferPlace_lt (hdsect : fp.dsect < 2 ^ 28) (hsect : sect < 2 ^ 28) (hcc : cc ≤ 2 ^ 28) :
    fp.bufferPlace sect < cc ↔ sect ≤ fp.dsect ∧ fp.dsect - sect < cc := by
  unfold FIL.bufferPlace dword
  omega

theorem FIL.bufferPlace_eq (hdsect : fp.dsect < 2 ^ 28) (hsect : sect < 2 ^ 28) (hle : sect ≤ fp.dsect) :
    fp.bufferPlace sect = fp.dsect - sect := by
  unfold FIL.bufferPlace dword
  omega

theorem FileData.dsect_lt (h : FileData S v fp l) (hready : v.Ready S) : fp.dsect < 2 ^ 28 := by
  rcases h.buffer with hzero | ⟨k, hk, heq⟩
  · omega
  · exact heq ▸ h.sectorAt_lt hready hk

/-- The sectors of a direct transfer are in one cluster. -/
theorem clipCount_le {csize csect : Nat} (hcsect : csect < csize) (hcc : cc ≠ 0) :
    0 < clipCount csize csect cc ∧ clipCount csize csect cc ≤ cc ∧ csect + clipCount csize csect cc ≤ csize := by
  unfold clipCount
  split <;> omega

/-- **Whole sectors are read**, of which one may be in the buffer. -/
theorem FileData.readDirect (h : FileData S v fp l) (hready : v.Ready S) (hbound : fp.fptr % 512 = 0)
    (hin : fp.fptr / 512 % v.layout.csize + cc ≤ v.layout.csize) (hlen : fp.fptr / 512 + cc ≤ l.length * v.layout.csize)
    (hpos : 0 < cc) :
    Fat.readDirect (v.layout.sectorAt l (fp.fptr / 512)) cc fp v
      = .ok (.FR_OK, (List.range (512 * cc)).map fun i => fileByte v fp l (fp.fptr + i)) := by
  have hsector : ∀ j < cc, v.layout.sectorAt l (fp.fptr / 512 + j) = v.layout.sectorAt l (fp.fptr / 512) + j :=
    fun j hj => FatLayout.sectorAt_add (by omega)
  have hlt : ∀ j < cc, v.layout.sectorAt l (fp.fptr / 512) + j < 2 ^ 28 := fun j hj =>
    hsector j hj ▸ h.sectorAt_lt hready (by omega)
  generalize hsect : v.layout.sectorAt l (fp.fptr / 512) = sect at *
  have hread : diskRead v.disk sect cc = .ok (.RES_OK, (List.range cc).map fun j => v.disk.sector (sect + j)) :=
    diskRead_of_answers hready.sound.is_ata fun j hj => hsector j hj ▸ h.answers hready (by omega)
  have hdsect := h.dsect_lt hready
  have hfirst := hlt 0 hpos
  have hlast := hlt (cc - 1) (by omega)
  have hplace := FIL.bufferPlace_lt hdsect (by omega : sect < 2 ^ 28) (by omega : cc ≤ 2 ^ 28)
  have hbytes : ∀ f : Nat → Sector, (∀ j < cc, f j = fp.slot.seen v.disk.sector (sect + j)) →
      ((List.range cc).map f).flatMap sectorBytes
        = (List.range (512 * cc)).map fun i => fileByte v fp l (fp.fptr + i) := fun f hf => by
    rw [flatMap_sectorBytes]
    refine List.map_congr_left fun i hi => ?_
    have hi := List.mem_range.mp hi
    have hj : i / 512 < cc := by omega
    rw [hf _ hj, fileByte, show (fp.fptr + i) / 512 = fp.fptr / 512 + i / 512 by omega, hsector _ hj,
      show (fp.fptr + i) % 512 = i % 512 by omega]
  simp only [Fat.readDirect, hread, kernel_ok_bind, ne_eq, not_true_eq_false, if_false]
  split
  · rename_i hbuffer
    obtain ⟨hle, hbelow⟩ := hplace.mp hbuffer.2
    have hset : ((List.range cc).map fun j => v.disk.sector (sect + j)).set (fp.dsect - sect) fp.buf
        = (List.range cc).map fun j => fp.slot.seen v.disk.sector (sect + j) := by
      refine List.ext_getElem ?_ fun j hj hj' => ?_
      · simp only [List.length_set, List.length_map]
      · simp only [List.getElem_set, List.getElem_map, List.getElem_range]
        by_cases heq : fp.dsect - sect = j
        · rw [if_pos heq, show sect + j = fp.dsect by omega, FIL.seen_dsect (h.loaded hbuffer.1)]
        · rw [if_neg heq, FIL.seen_of_ne (by omega)]
    rw [FIL.bufferPlace_eq hdsect (by omega) hle, hset, hbytes _ fun j _ => rfl]
    rfl
  · rename_i hbuffer
    rw [hbytes _ fun j hj => ?_]
    · rfl
    · by_cases hclean : fp.FA__DIRTY = false
      · rw [h.seen_clean hclean]
      · have hdirty : fp.FA__DIRTY = true := by simpa using hclean
        have hnot := (not_congr hplace).mp fun hp => hbuffer ⟨hdirty, hp⟩
        rw [FIL.seen_of_ne (by omega)]

/-- **What has been transferred by `f_read`**, and what has become of the file. -/
structure ReadStep (S : Set Nat) (v : Volume) (fp : FIL) (l : List Nat) (bytes : List UInt8) (v' : Volume) (fp' : FIL) :
    Prop where
  content : bytes = (List.range bytes.length).map fun i => fileByte v fp l (fp.fptr + i)
  step : FileStep S v v' l l
  ptr : fp'.fptr = fp.fptr
  at' : FileAt S v' { fp' with fptr := fp.fptr + bytes.length } l
  keeps : fp.Keeps fp'
  same : ∀ i < fp.fsize, fileByte v' fp' l i = fileByte v fp l i

/-- **A round of `f_read`** that takes bytes from the buffer. -/
theorem FileData.readPartial (h : FileData S v fp l) (hready : v.Ready S) (hpos : 0 < btr)
    (hle : fp.fptr + btr ≤ fp.fsize) (hcurr : l[fp.fptr / 512 / v.layout.csize]? = some fp.curr_clust)
    (hsect : fp.dsect = v.layout.sectorAt l (fp.fptr / 512)) :
    0 < (pickPartial btr fp).length ∧ (pickPartial btr fp).length ≤ btr
      ∧ ReadStep S v fp l (pickPartial btr fp) v fp := by
  have hlen : (pickPartial btr fp).length = min (512 - fp.fptr % 512) btr := by
    rw [pickPartial, List.length_map, List.length_range]
  have hne : fp.dsect ≠ 0 := hsect ▸ hready.sound.wellFormed.sectorAt_ne_zero
  have hsize := h.size
  refine ⟨by omega, by omega, ?_, hready.refl_step l, rfl, h.advance hcurr ?_ (by omega) fun hmod => ?_, .refl fp,
    fun _ _ => rfl⟩
  · rw [hlen]
    exact pickPartial_eq hsect hne
  · rw [show (fp.fptr + (pickPartial btr fp).length - 1) / 512 = fp.fptr / 512 by omega]
  · rw [show (fp.fptr + (pickPartial btr fp).length) / 512 = fp.fptr / 512 by omega]
    exact hsect

/-- What has been prepared before bytes are transferred. -/
theorem ReadStep.prepared {v₁ : Volume} {fp₁ : FIL} {bytes : List UInt8} (hstep : FileStep S v v₁ l l)
    (hkeeps : fp.Keeps fp₁) (hptr : fp₁.fptr = fp.fptr)
    (hbyte : ∀ i < fp.fsize, fileByte v₁ fp₁ l i = fileByte v fp l i) (hle : fp.fptr + bytes.length ≤ fp.fsize)
    (h : ReadStep S v₁ fp₁ l bytes v' fp') : ReadStep S v fp l bytes v' fp' where
  content := by
    refine h.content.trans (List.map_congr_left fun i hi => ?_)
    have hlt := List.mem_range.mp hi
    rw [hptr, hbyte _ (by omega)]
  step := hstep.trans h.step (fun _ hx => hx) fun _ hx => hx
  ptr := h.ptr.trans hptr
  at' := hptr ▸ h.at'
  keeps := hkeeps.trans h.keeps
  same i hi := (h.same i (hkeeps.fsize.symm ▸ hi)).trans (hbyte i hi)

/-- **A round of `f_read` that fills the buffer.** -/
theorem FileData.readBuffered (h : FileData S v fp l) (hready : v.Ready S) (hpos : 0 < btr)
    (hle : fp.fptr + btr ≤ fp.fsize) (hcurr : l[fp.fptr / 512 / v.layout.csize]? = some fp.curr_clust) :
    ∃ bytes fp' v', Fat.readBuffered btr (v.layout.sectorAt l (fp.fptr / 512)) fp v = .ok (.FR_OK, bytes, fp', v')
      ∧ 0 < bytes.length ∧ bytes.length ≤ btr ∧ ReadStep S v fp l bytes v' fp' := by
  obtain ⟨fp₂, v₂, hflush, hfp₂, hstep₂, hdata₂, hfs, hbyte₂⟩ := h.flush hready
  obtain ⟨-, hlt, -⟩ := h.sect_eq hready hcurr
  have hlayout₂ : v₂.layout = v.layout := congrArg FATFS.toFatLayout hfs
  have hclean₂ : fp₂.FA__DIRTY = false := by rw [hfp₂]
  have hkeeps₂ : fp.Keeps fp₂ := by
    rw [hfp₂]
    exact ⟨rfl, rfl, rfl, fun hfalse => absurd hfalse Bool.false_ne_true⟩
  have hptr₂ : fp₂.fptr = fp.fptr := by rw [hfp₂]
  have hcurr₂ : fp₂.curr_clust = fp.curr_clust := by rw [hfp₂]
  obtain ⟨fp₃, hfill, hfp₃, hdata₃, hbyte₃⟩ := hdata₂.fill hstep₂.ready hclean₂ (hlayout₂.symm ▸ hlt)
  have hkeeps₃ : fp₂.Keeps fp₃ := by
    rw [hfp₃]
    exact ⟨rfl, rfl, rfl, fun hdirty => hdirty⟩
  have hptr₃ : fp₃.fptr = fp₂.fptr := by rw [hfp₃]
  have hfsize₂ := hkeeps₂.fsize
  have hfsize₃ := hkeeps₃.fsize
  have hcurr₃ : l[fp₃.fptr / 512 / v₂.layout.csize]? = some fp₃.curr_clust := by
    rw [hptr₃, hptr₂, hlayout₂, hcurr, hfp₃, hcurr₂]
  have hsect₃ : fp₃.dsect = v₂.layout.sectorAt l (fp₃.fptr / 512) := by rw [hptr₃, hptr₂, hfp₃]
  obtain ⟨hfirst, hlast, hread⟩ := hdata₃.readPartial hstep₂.ready hpos (by omega) hcurr₃ hsect₃
  rw [hlayout₂] at hfill
  refine ⟨_, fp₃, v₂, ?_, hfirst, hlast, hread.prepared hstep₂ (hkeeps₂.trans hkeeps₃)
    (hptr₃.trans hptr₂) (fun i _ => (hbyte₃ i).trans (hbyte₂ i)) (by omega)⟩
  simp only [Fat.readBuffered, hflush, hfill, kernel_ok_bind, ne_eq, not_true_eq_false, if_false]
  rfl

/-- **A round of `f_read` that transfers whole sectors.** -/
theorem FileData.readSectors (h : FileData S v fp l) (hready : v.Ready S) (hbound : fp.fptr % 512 = 0)
    (hle : fp.fptr + 512 * cc ≤ fp.fsize) (hcurr : l[fp.fptr / 512 / v.layout.csize]? = some fp.curr_clust)
    (hcc : 0 < cc) (hin : fp.csect v + cc ≤ v.layout.csize) :
    ∃ bytes, Fat.readDirect (v.layout.sectorAt l (fp.fptr / 512)) cc fp v = .ok (.FR_OK, bytes)
      ∧ bytes.length = 512 * cc ∧ ReadStep S v fp l bytes v fp := by
  have hsize := h.size
  have hplace : (fp.fptr + 512 * cc - 1) / 512 = fp.fptr / 512 + (cc - 1) := by omega
  rw [FIL.csect_eq hready] at hin
  have hdiv : (fp.fptr / 512 + (cc - 1)) / v.layout.csize = fp.fptr / 512 / v.layout.csize :=
    add_div_of_mod_lt (by omega)
  have hlen : ((List.range (512 * cc)).map fun i => fileByte v fp l (fp.fptr + i)).length = 512 * cc := by
    rw [List.length_map, List.length_range]
  refine ⟨_, h.readDirect hready hbound hin (by omega) hcc, hlen, by rw [hlen], hready.refl_step l, rfl,
    h.advance hcurr ?_ ?_ fun hmod => ?_, .refl fp, fun _ _ => rfl⟩
  · rw [hlen, hplace, hdiv]
  · rw [hlen]
    omega
  · rw [hlen] at hmod
    omega

/-- **A round of `f_read` in the current cluster.** -/
theorem FileData.readSector (h : FileData S v fp l) (hready : v.Ready S) (hbound : fp.fptr % 512 = 0) (hpos : 0 < btr)
    (hle : fp.fptr + btr ≤ fp.fsize) (hcurr : l[fp.fptr / 512 / v.layout.csize]? = some fp.curr_clust) :
    ∃ bytes fp' v', Fat.readSector btr (fp.csect v) fp v = .ok (.FR_OK, bytes, fp', v') ∧ 0 < bytes.length
      ∧ bytes.length ≤ btr ∧ ReadStep S v fp l bytes v' fp' := by
  obtain ⟨hne, -, hsect⟩ := h.sect_eq hready hcurr
  rw [Fat.readSector, if_neg hne, hsect]
  by_cases hdirect : btr / 512 = 0
  · rw [if_neg (not_not.mpr hdirect)]
    exact h.readBuffered hready hpos hle hcurr
  · have hmod : fp.csect v < v.layout.csize := by
      rw [FIL.csect_eq hready]
      exact Nat.mod_lt _ hready.sound.wellFormed.csize_pos
    obtain ⟨hcc, hcc', hin⟩ := clipCount_le hmod hdirect
    obtain ⟨bytes, hread, hlen, hstep⟩ := h.readSectors hready hbound (by omega) hcurr hcc hin
    have hread : Fat.readDirect (v.layout.sectorAt l (fp.fptr / 512))
        (clipCount v.fs.csize (fp.csect v) (btr / 512)) fp v = .ok (.FR_OK, bytes) := hread
    rw [if_pos hdirect, hread]
    exact ⟨bytes, fp, v, rfl, by omega, by omega, hstep⟩

/-- **One round of `f_read`** transfers bytes of the file. -/
theorem FileAt.readChunk (h : FileAt S v fp l) (hready : v.Ready S) (hpos : 0 < btr)
    (hle : fp.fptr + btr ≤ fp.fsize) :
    ∃ bytes fp' v', Fat.readChunk btr fp v = .ok (.FR_OK, bytes, fp', v') ∧ 0 < bytes.length ∧ bytes.length ≤ btr
      ∧ ReadStep S v fp l bytes v' fp' := by
  have hsize := h.size
  by_cases hbound : fp.fptr % 512 = 0
  · obtain ⟨fp₁, v₁, hrun, hkeeps, hptr, hget, hstep, hdata, hbyte⟩ := h.readCluster hready hbound (by omega)
    have hlayout := hstep.layout
    have hfsize := hkeeps.fsize
    have hcsect : fp₁.csect v₁ = fp.csect v := by
      rw [FIL.csect_eq hready, FIL.csect_eq hstep.ready, hlayout, hptr]
    have hcurr : l[fp₁.fptr / 512 / v₁.layout.csize]? = some fp₁.curr_clust := by rw [hlayout, hptr]; exact hget
    obtain ⟨bytes, fp', v', hread, hfirst, hlast, hstep'⟩ :=
      hdata.readSector hstep.ready (by omega) hpos (by omega) hcurr
    rw [hcsect] at hread
    refine ⟨bytes, fp', v', ?_, hfirst, hlast,
      hstep'.prepared hstep hkeeps hptr (fun i hi => hbyte i (hi.trans_le hsize)) (by omega)⟩
    rw [Fat.readChunk, if_neg (not_not.mpr hbound), hrun, kernel_ok_bind, ← hread]
    exact if_neg (not_not.mpr rfl)
  · have hpred : (fp.fptr - 1) / 512 = fp.fptr / 512 := by omega
    have hcurr := h.curr (by omega)
    rw [hpred] at hcurr
    obtain ⟨hfirst, hlast, hread⟩ := h.readPartial hready hpos hle hcurr (h.sect hbound)
    exact ⟨_, fp, v, if_pos hbound, hfirst, hlast, hread⟩

/-! ## The function -/

/-- **The loop of `f_read`** reads all that it is asked for. -/
theorem FileAt.readLoop (h : FileAt S v fp l) (hready : v.Ready S) (hle : fp.fptr + btr ≤ fp.fsize)
    (hsmall : fp.fsize < 2 ^ 32) (hfuel : btr < fuel) :
    ∃ bytes fp' v', Fat.readLoop fuel btr fp v = .ok (.FR_OK, bytes, fp', v')
      ∧ bytes = (fileStream v fp l).taken btr ∧ fileStream v' fp' l = (fileStream v fp l).skip btr
      ∧ FileStep S v v' l l ∧ FileAt S v' fp' l ∧ fp.Keeps fp' ∧ fp'.fptr = fp.fptr + btr := by
  induction fuel generalizing btr fp v with
  | zero => exact absurd hfuel (Nat.not_lt_zero _)
  | succ fuel ih =>
    rw [Fat.readLoop]
    by_cases hzero : btr = 0
    · rw [if_pos hzero, hzero]
      exact ⟨[], fp, v, rfl, Stream.taken_zero.symm, Stream.skip_zero.symm, hready.refl_step l, h, .refl fp, rfl⟩
    · obtain ⟨bytes, fp₁, v₁, hrun, hfirst, hlast, hstep⟩ := h.readChunk hready (Nat.pos_of_ne_zero hzero) hle
      have hfsize := hstep.keeps.fsize
      have hword : dword (fp₁.fptr + bytes.length) = fp.fptr + bytes.length := by
        rw [hstep.ptr, dword_of_lt (by omega)]
      have hkeeps : fp.Keeps { fp₁ with fptr := fp.fptr + bytes.length } :=
        ⟨hstep.keeps.handle, hstep.keeps.fsize, hstep.keeps.written, hstep.keeps.dirty⟩
      have hskip : fileStream v₁ { fp₁ with fptr := fp.fptr + bytes.length } l
          = (fileStream v fp l).skip bytes.length := fileStream_skip hfsize rfl (by omega) hstep.same
      have htaken : bytes = (fileStream v fp l).taken bytes.length :=
        hstep.content.trans (fileStream_taken (by omega)).symm
      obtain ⟨rest, fp', v', hrun', hrest, hstream, hstep', hat, hkeeps', hptr⟩ :=
        ih hstep.at' hstep.step.ready (by show fp.fptr + bytes.length + (btr - bytes.length) ≤ fp₁.fsize; omega)
          (by show fp₁.fsize < _; omega) (by omega : btr - bytes.length < fuel)
      rw [if_neg hzero, hrun, kernel_ok_bind]
      simp only [hword, hrun', kernel_ok_bind, ne_eq, not_true_eq_false, if_false]
      have hsum : btr = bytes.length + (btr - bytes.length) := by omega
      refine ⟨bytes ++ rest, fp', v', rfl, ?_, ?_, hstep.step.trans hstep' (fun _ hx => hx) (fun _ hx => hx), hat,
        hkeeps.trans hkeeps', hptr.trans ?_⟩
      · rw [hsum, Stream.taken_add, ← hskip, ← hrest, ← htaken]
      · rw [hstream, hskip, ← Stream.skip_add, ← hsum]
      · show fp.fptr + bytes.length + (btr - bytes.length) = fp.fptr + btr
        omega

/-- **`f_read` reads the bytes of the file** from its position on, up to its end. -/
theorem FileOpen.fRead (h : FileOpen S v fp l) (hready : v.Ready S) (hmode : fp.FA_READ = true) (btr : Nat) :
    ∃ bytes fp' v', Fat.fRead btr fp v = .ok (.FR_OK, bytes, fp', v')
      ∧ bytes = (fileStream v fp l).taken btr ∧ fileStream v' fp' l = (fileStream v fp l).skip btr
      ∧ FileStep S v v' l l ∧ FileOpen S v' fp' l ∧ fp'.handle = fp.handle ∧ fp.Marked fp' := by
  have hsettled := h.settled
  have hsmall := h.small
  have hremain : dword (fp.fsize + (2 ^ 32 - fp.fptr)) = fp.fsize - fp.fptr := by
    unfold dword
    omega
  have hlen : (fileStream v fp l).data.length - (fileStream v fp l).pos = fp.fsize - fp.fptr := by
    simp only [fileStream, ofFun, List.length_map, List.length_range]
    omega
  obtain ⟨bytes, fp', v', hrun, hbytes, hstream, hstep, hat, hkeeps, hptr⟩ :=
    h.readLoop hready (by omega : fp.fptr + min btr (fp.fsize - fp.fptr) ≤ fp.fsize) hsmall (Nat.lt_succ_self _)
  rw [← hlen, Stream.taken_min] at hbytes
  have hskip : fileStream v' fp' l = (fileStream v fp l).skip btr := by
    rw [hstream, ← hlen, Stream.skip_min]
  have hfsize := hkeeps.fsize
  have hhandle := hkeeps.handle
  simp only [FIL.handle, Prod.mk.injEq] at hhandle
  obtain ⟨hfs, hid, -, -, herror, -, -⟩ := hhandle
  refine ⟨bytes, fp', v', ?_, hbytes, hskip, hstep, ⟨hat, hfs.trans h.fs, ?_, herror.trans h.error, by omega, by omega,
    fun hdirty => ?_⟩, hkeeps.handle, fun hclean => ⟨hkeeps.written.symm.trans hclean, hat.org.trans h.org.symm, hfsize⟩⟩
  · simp only [Fat.fRead, h.validate hready, ne_eq, not_true_eq_false, if_false, h.error, hmode, hremain,
      Bool.false_eq_true, Bool.true_eq_false]
    exact hrun
  · rw [hstep.layout, hid, h.id]
  · rw [hkeeps.written]
    exact h.written (hkeeps.dirty hdirty)

/-- A file that has not been opened for reading. -/
theorem FileOpen.fRead_denied (h : FileOpen S v fp l) (hready : v.Ready S) (hmode : fp.FA_READ = false) (btr : Nat) :
    Fat.fRead btr fp v = .ok (.FR_DENIED, [], fp, v) := by
  rw [Fat.fRead, h.validate hready]
  dsimp only
  rw [if_neg (not_not.mpr rfl), if_neg (by rw [h.error]; decide), if_pos hmode]

end KaushOS.Fat
