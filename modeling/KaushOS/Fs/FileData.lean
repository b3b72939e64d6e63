import KaushOS.Fs.FileState
import KaushOS.Library.Streams

/-! # What an open file holds (`kern/fs/ff.c`)

One of the sectors of an open file may be in the buffer of its file object, which is written back before
it is used for another sector.

* **`FileData`**, **`FileAt`** — the invariant of an open file with its chain.
* **`fileStream`** — what the file holds, and the position in it.
* **`FileData.flush`**, **`FileData.fill`** — the buffer is written back, and filled.
* **`FileData.sect_eq`** — the sector that the functions find is the one of the position. -/

namespace KaushOS.Fat

open LinkedChain WriteBack Streams

variable {v v' : Volume} {c k n s : Nat} {l l' : List Nat} {S : Set Nat} {fp fp' : FIL} {bs : List UInt8}

/-! ## The invariant -/

/-- The buffer of a file as a cache; the sector 0 stands for none. -/
def FIL.slot (fp : FIL) : Slot Nat Sector := ⟨if fp.dsect = 0 then none else some fp.dsect, fp.buf, fp.FA__DIRTY⟩

/-- **The invariant of an open file** with its chain, while its functions run. -/
structure FileData (S : Set Nat) (v : Volume) (fp : FIL) (l : List Nat) : Prop where
  chain : v.HasChain l
  owned : ∀ c ∈ l, c ∈ S
  org : fp.org_clust = l.headD 0
  size : fp.fsize ≤ l.length * v.layout.csize * 512
  pos : fp.fptr ≤ l.length * v.layout.csize * 512
  buffer : fp.dsect = 0 ∨ ∃ k < l.length * v.layout.csize, fp.dsect = v.layout.sectorAt l k
  loaded : fp.FA__DIRTY = true → fp.dsect ≠ 0
  coherent : fp.slot.Coherent v.disk.sector

/-- The members that the position decides about: the current cluster, and the buffer inside of a sector. -/
structure FileAt (S : Set Nat) (v : Volume) (fp : FIL) (l : List Nat) : Prop extends FileData S v fp l where
  curr : 0 < fp.fptr → l[(fp.fptr - 1) / 512 / v.layout.csize]? = some fp.curr_clust
  sect : fp.fptr % 512 ≠ 0 → fp.dsect = v.layout.sectorAt l (fp.fptr / 512)

/-- **A byte of a file.** -/
def fileByte (v : Volume) (fp : FIL) (l : List Nat) (i : Nat) : UInt8 :=
  fp.slot.seen v.disk.sector (v.layout.sectorAt l (i / 512)) (i % 512)

/-- **What a file holds**, and the position in it. The position is behind `fsize` only while the file is written. -/
def fileStream (v : Volume) (fp : FIL) (l : List Nat) : Stream UInt8 :=
  ofFun (fileByte v fp l) (max fp.fsize fp.fptr) fp.fptr (le_max_right _ _)

/-- **The invariant of an open file** between the calls of functions: it can be used, and what has been put into its
buffer is known to `f_sync`. -/
structure FileOpen (S : Set Nat) (v : Volume) (fp : FIL) (l : List Nat) : Prop extends FileAt S v fp l where
  fs : fp.fs = true
  id : fp.id = v.layout.id
  error : fp.FA__ERROR = false
  settled : fp.fptr ≤ fp.fsize
  small : fp.fsize < 2 ^ 32
  written : fp.FA__DIRTY = true → fp.FA__WRITTEN = true

/-- A file that has not been marked for `f_sync` has nothing in its buffer that is not on the disk. -/
theorem FileOpen.clean_of_unmarked (h : FileOpen S v fp l) (hwritten : fp.FA__WRITTEN = false) :
    fp.FA__DIRTY = false := by
  by_contra hdirty
  exact absurd (hwritten.symm.trans (h.written (by simpa using hdirty))) Bool.false_ne_true

/-- The members that no transfer changes. -/
def FIL.handle (fp : FIL) : Bool × Nat × Bool × Bool × Bool × Nat × Nat :=
  (fp.fs, fp.id, fp.FA_READ, fp.FA_WRITE, fp.FA__ERROR, fp.dir_sect, fp.dir_ptr)

/-- An open file is valid. -/
theorem FileOpen.validate (h : FileOpen S v fp l) (hready : v.Ready S) : Fat.validate fp v = .FR_OK := by
  refine if_neg ?_
  rintro (hfs | hmounted | hid)
  · exact absurd (h.fs.symm.trans hfs) Bool.true_eq_false_eq_False
  · exact hready.sound.wellFormed.mounted hmounted
  · exact hid h.id.symm

/-! ## Streams of files -/

/-- What is read. -/
theorem fileStream_taken (hle : fp.fptr + n ≤ fp.fsize) :
    (fileStream v fp l).taken n = (List.range n).map fun i => fileByte v fp l (fp.fptr + i) :=
  ofFun_taken _ (hle.trans (le_max_left _ _))

/-- The position moves on. -/
theorem fileStream_skip (hsize : fp'.fsize = fp.fsize) (hptr : fp'.fptr = fp.fptr + n) (hle : fp.fptr + n ≤ fp.fsize)
    (hbyte : ∀ i < fp.fsize, fileByte v' fp' l' i = fileByte v fp l i) :
    fileStream v' fp' l' = (fileStream v fp l).skip n := by
  have hmax : max fp.fsize fp.fptr = fp.fsize := max_eq_left (by omega)
  have hmax' : max fp'.fsize fp'.fptr = fp.fsize := by rw [hsize, hptr, max_eq_left hle]
  ext1
  · simp only [fileStream, ofFun, Stream.skip, hmax, hmax']
    exact List.map_congr_left fun i hi => hbyte i (List.mem_range.mp hi)
  · simp only [fileStream, ofFun, Stream.skip, hmax, List.length_map, List.length_range, hptr, min_eq_left hle]

/-- What is written. -/
theorem fileStream_write (hptr : fp'.fptr = fp.fptr + bs.length) (hsize : fp'.fsize = fp.fsize)
    (hnew : ∀ i (hi : i < bs.length), fileByte v' fp' l' (fp.fptr + i) = bs[i])
    (hold : ∀ i < max fp.fsize fp.fptr, i < fp.fptr ∨ fp.fptr + bs.length ≤ i →
      fileByte v' fp' l' i = fileByte v fp l i) : fileStream v' fp' l' = (fileStream v fp l).write bs := by
  have hmax : max fp'.fsize fp'.fptr = max (max fp.fsize fp.fptr) (fp.fptr + bs.length) := by
    rw [hsize, hptr]
    omega
  refine Eq.trans ?_ (ofFun_write (le_max_right _ _) hmax (hptr ▸ le_max_right _ _) hnew hold)
  ext1
  · rfl
  · exact hptr

/-- Only the bytes matter. -/
theorem fileStream_congr (hsize : fp'.fsize = fp.fsize) (hptr : fp'.fptr = fp.fptr)
    (hbyte : ∀ i < max fp.fsize fp.fptr, fileByte v' fp' l' i = fileByte v fp l i) :
    fileStream v' fp' l' = fileStream v fp l := by
  ext1
  · simp only [fileStream, ofFun, hsize, hptr]
    exact List.map_congr_left fun i hi => hbyte i (List.mem_range.mp hi)
  · exact hptr

/-! ## Sectors and positions -/

theorem FIL.csect_eq (h : v.Ready S) : fp.csect v = fp.fptr / 512 % v.layout.csize := by
  obtain ⟨k, -, hk⟩ := h.sound.wellFormed.csize
  have hcsize : v.fs.csize = 2 ^ k := hk
  rw [FIL.csect, hk, hcsize, Nat.and_two_pow_sub_one_eq_mod]

/-- The sectors of a file are different. -/
theorem FileData.sectorAt_inj {j : Nat} (h : FileData S v fp l) (hready : v.Ready S)
    (hk : k < l.length * v.layout.csize) (hj : j < l.length * v.layout.csize)
    (heq : v.layout.sectorAt l k = v.layout.sectorAt l j) : k = j :=
  FatLayout.sectorAt_inj hready.sound.wellFormed h.chain.nodup (fun x hx => (h.chain.used x hx).1.1) hk hj heq

/-- A sector of a file is in one of its clusters. -/
theorem FileData.inCluster (h : FileData S v fp l) (hready : v.Ready S) (hk : k < l.length * v.layout.csize) :
    ∃ c ∈ l, c ∈ S ∧ v.layout.InCluster c (v.layout.sectorAt l k) := by
  have hmem := FatLayout.getD_mem (FatLayout.div_csize_lt hk)
  exact ⟨_, hmem, h.owned _ hmem, FatLayout.sectorAt_inCluster hready.sound.wellFormed⟩

/-- A sector of a file can be transferred. -/
theorem FileData.answers (h : FileData S v fp l) (hready : v.Ready S) (hk : k < l.length * v.layout.csize) :
    v.disk.Answers (v.layout.sectorAt l k) := by
  obtain ⟨c, -, hc, hin⟩ := h.inCluster hready hk
  exact hready.sound.answers _ (hin.lt_limit (hready.clusters c hc))

theorem FileData.sectorAt_lt (h : FileData S v fp l) (hready : v.Ready S) (hk : k < l.length * v.layout.csize) :
    v.layout.sectorAt l k < 2 ^ 28 := (h.answers hready hk).lba

/-- **The sector that is found for a position** is the one of the position. -/
theorem FileData.sect_eq (h : FileData S v fp l) (hready : v.Ready S)
    (hcurr : l[fp.fptr / 512 / v.layout.csize]? = some fp.curr_clust) :
    clust2sect v.layout fp.curr_clust ≠ 0 ∧ fp.fptr / 512 < l.length * v.layout.csize
      ∧ dword (clust2sect v.layout fp.curr_clust + fp.csect v) = v.layout.sectorAt l (fp.fptr / 512) := by
  have hL := hready.sound.wellFormed
  obtain ⟨hlt, hget⟩ := List.getElem?_eq_some_iff.mp hcurr
  have hk : fp.fptr / 512 < l.length * v.layout.csize := (Nat.div_lt_iff_lt_mul hL.csize_pos).mp hlt
  have hcluster := (h.chain.used _ (List.mem_of_getElem? hcurr)).1
  have hsect : v.layout.sectorOf fp.curr_clust + fp.csect v = v.layout.sectorAt l (fp.fptr / 512) := by
    rw [FIL.csect_eq hready, FatLayout.sectorAt, List.getD_eq_getElem?_getD, hcurr, Option.getD_some]
  have hlba := h.sectorAt_lt hready hk
  rw [hready.sound.clust2sect hcluster, hsect, dword_of_lt (by omega)]
  exact ⟨hL.sectorOf_ne_zero, hk, rfl⟩

/-! ## The buffer -/

theorem FIL.slot_key (hs : fp.dsect ≠ 0) : fp.slot.key = some fp.dsect := if_neg hs

/-- What is in the buffer is seen. -/
theorem FIL.seen_dsect (hs : fp.dsect ≠ 0) : fp.slot.seen v.disk.sector fp.dsect = fp.buf :=
  Slot.seen_key (FIL.slot_key hs)

/-- Everything else is on the disk. -/
theorem FIL.seen_of_ne (hs : s ≠ fp.dsect) : fp.slot.seen v.disk.sector s = v.disk.sector s := by
  refine Slot.seen_of_ne fun hkey => ?_
  unfold FIL.slot at hkey
  dsimp only at hkey
  split at hkey
  · cases hkey
  · exact hs (Option.some.inj hkey).symm

/-- Where nothing has to be written back, everything is on the disk. -/
theorem FileData.seen_clean (h : FileData S v fp l) (hclean : fp.FA__DIRTY = false) :
    fp.slot.seen v.disk.sector = v.disk.sector := Slot.seen_clean h.coherent hclean

/-- The data of the file are where they have been. -/
theorem FileData.sector_same (h : FileData S v fp l) (hready : v.Ready S) (hsame : v.SameData {c | c ∈ l} v')
    (hk : k < l.length * v.layout.csize) :
    v'.disk.sector (v.layout.sectorAt l k) = v.disk.sector (v.layout.sectorAt l k) := by
  obtain ⟨c, hc, -, hin⟩ := h.inCluster hready hk
  exact hsame c hc _ hin

/-- **A buffer that has been clean still is**, where the data of the file have not changed. -/
theorem FileData.coherent_same (h : FileData S v fp l) (hready : v.Ready S) (hsame : v.SameData {c | c ∈ l} v') :
    fp.slot.Coherent v'.disk.sector := by
  intro hclean k hkey
  refine Eq.trans ?_ (h.coherent hclean k hkey)
  by_cases hne : fp.dsect = 0
  · exact absurd ((if_pos hne).symm.trans hkey) (Option.some_ne_none k).symm
  · obtain ⟨j, hj, heq⟩ := h.buffer.resolve_left hne
    obtain rfl : fp.dsect = k := Option.some.inj ((FIL.slot_key hne).symm.trans hkey)
    rw [heq]
    exact h.sector_same hready hsame hj

/-- **A byte of the file** that is in the same sector as before. -/
theorem FileData.byte_same {i : Nat} (h : FileData S v fp l) (hready : v.Ready S) (hsame : v.SameData {c | c ∈ l} v')
    (hslot : fp'.slot = fp.slot) (hk : i / 512 < l.length * v.layout.csize)
    (hat : v'.layout.sectorAt l' (i / 512) = v.layout.sectorAt l (i / 512)) :
    fileByte v' fp' l' i = fileByte v fp l i := by
  rw [fileByte, fileByte, hslot, hat]
  by_cases heq : v.layout.sectorAt l (i / 512) = fp.dsect
  · have hne : fp.dsect ≠ 0 := heq ▸ hready.sound.wellFormed.sectorAt_ne_zero
    rw [heq, FIL.seen_dsect hne, FIL.seen_dsect hne]
  · rw [FIL.seen_of_ne heq, FIL.seen_of_ne heq, h.sector_same hready hsame hk]

/-- **The buffer is written back.** -/
theorem FileData.flush (h : FileData S v fp l) (hready : v.Ready S) :
    ∃ fp' v', flushBuffer fp v = .ok (.FR_OK, fp', v') ∧ fp' = { fp with FA__DIRTY := false } ∧ FileStep S v v' l l
      ∧ FileData S v' fp' l ∧ v'.fs = v.fs ∧ ∀ i, fileByte v' fp' l i = fileByte v fp l i := by
  by_cases hclean : fp.FA__DIRTY = false
  · have hself : fp = { fp with FA__DIRTY := false } := by rw [← hclean]
    refine ⟨fp, v, ?_, hself, hready.refl_step l, h, rfl, fun _ => rfl⟩
    rw [flushBuffer, if_pos hclean]
    rfl
  · have hdirty : fp.FA__DIRTY = true := by simpa using hclean
    have hne := h.loaded hdirty
    obtain ⟨k, hk, hdsect⟩ := h.buffer.resolve_left hne
    have hanswers := h.answers hready hk
    let disk : Disk := { v.disk with sector := storeSectors v.disk.sector fp.dsect [fp.buf] }
    have hwrite : diskWrite v.disk [fp.buf] fp.dsect = .ok (.RES_OK, disk) :=
      diskWrite_of_answers hready.sound.is_ata fun i hi => by
        obtain rfl : i = 0 := by simpa using hi
        exact hdsect ▸ hanswers
    have hsector : disk.sector = Function.update v.disk.sector fp.dsect fp.buf := storeSectors_one ..
    obtain ⟨c, hc, -, hin⟩ := h.inCluster hready hk
    have hothers : ∀ s, (∀ c ∈ l, ¬ v.layout.InCluster c s) → disk.sector s = v.disk.sector s := fun s hs => by
      rw [hsector, Function.update_of_ne]
      rintro rfl
      exact hs c hc (hdsect ▸ hin)
    have hsame : v.disk.Same disk := ⟨rfl, rfl, rfl⟩
    obtain ⟨hstep, hfat⟩ := hready.disk_step hsame h.owned hothers
    refine ⟨_, { v with disk }, ?_, rfl, hstep, ?_, rfl, fun i => ?_⟩
    · simp only [flushBuffer, if_neg hclean, hwrite, kernel_ok_bind, ne_eq, not_true_eq_false, if_false]
      rfl
    · refine ⟨h.chain.congr rfl fun x hx => hfat x (h.chain.used x hx).1, h.owned, h.org, h.size, h.pos, h.buffer,
        fun hfalse => absurd hfalse Bool.false_ne_true, fun _ k hk => ?_⟩
      have hkey : fp.slot.key = some k := hk
      rw [FIL.slot_key hne] at hkey
      cases hkey
      show disk.sector fp.dsect = fp.buf
      rw [hsector, Function.update_self]
    · -- the buffer is the same, and it is on the disk now
      have hslot : fp.slot.seen disk.sector = fp.slot.seen v.disk.sector := by
        rw [hsector]
        exact Slot.seen_update_self (FIL.slot_key hne) fp.buf
      show fp.slot.seen disk.sector _ _ = _
      rw [hslot]
      rfl

/-- **The buffer is filled** with a sector of the file. -/
theorem FileData.fill (h : FileData S v fp l) (hready : v.Ready S) (hclean : fp.FA__DIRTY = false)
    (hk : k < l.length * v.layout.csize) :
    ∃ fp', fillBuffer (v.layout.sectorAt l k) fp v = .ok (.FR_OK, fp')
      ∧ fp' = { fp with buf := v.disk.sector (v.layout.sectorAt l k), dsect := v.layout.sectorAt l k }
      ∧ FileData S v fp' l ∧ ∀ i, fileByte v fp' l i = fileByte v fp l i := by
  have hne : v.layout.sectorAt l k ≠ 0 := hready.sound.wellFormed.sectorAt_ne_zero
  have hdata : FileData S v
      { fp with buf := v.disk.sector (v.layout.sectorAt l k), dsect := v.layout.sectorAt l k } l := by
    refine ⟨h.chain, h.owned, h.org, h.size, h.pos, .inr ⟨k, hk, rfl⟩,
      fun hdirty => absurd (hclean.symm.trans hdirty) Bool.false_ne_true, fun _ j hj => ?_⟩
    have hj : (if v.layout.sectorAt l k = 0 then none else some (v.layout.sectorAt l k)) = some j := hj
    rw [if_neg hne] at hj
    cases hj
    rfl
  refine ⟨_, ?_, rfl, hdata, fun i => by rw [fileByte, fileByte, hdata.seen_clean hclean, h.seen_clean hclean]⟩
  by_cases heq : fp.dsect = v.layout.sectorAt l k
  · have hheld : v.disk.sector fp.dsect = fp.buf := h.coherent hclean fp.dsect (FIL.slot_key (heq ▸ hne))
    rw [fillBuffer, if_pos heq, ← heq, hheld]
    rfl
  · have hread : diskRead v.disk (v.layout.sectorAt l k) 1 = .ok (.RES_OK, [v.disk.sector (v.layout.sectorAt l k)]) :=
      diskRead_of_answers hready.sound.is_ata fun i hi => by
        obtain rfl : i = 0 := by omega
        exact h.answers hready hk
    simp only [fillBuffer, if_neg heq, hread, kernel_ok_bind, ne_eq, not_true_eq_false, if_false]
    rfl

end KaushOS.Fat
