import KaushOS.Fs.FileTruncate

/-! # Flushing a file (`kern/fs/ff.c`)

`f_sync` writes back the buffer of a file, stores its size and its first cluster in the directory entry, and
writes back the window. After that the disk alone holds the file.

* **`FatLayout.EntryPlace`** — the place of a directory entry.
* **`updateEntry_clust`**, **`updateEntry_size`** — what can be read from an entry that has been stored.
* **`Volume.Ready.storeEntry`** — a sector that no file uses is stored through the window, and flushed.
* **`FileOpen.fSync`** — what the function does.
* **`Volume.Ready.remounted`**, **`FileOpen.reopened`** — the file is found again when all but the disk is lost.
* **`truncate_keeps_freed_buffer`** — what `f_sync` does to a sector that `f_truncate` has freed. -/

namespace KaushOS.Fat

open LinkedChain WriteBack Streams

variable {L : FatLayout} {v v' v₀ : Volume} {c i j k s sect ptr size : Nat} {l l' : List Nat} {S : Set Nat} {fp fp' : FIL}
  {p q win : Sector}

/-! ## Stores and loads -/

/-- What is not in the word stays. -/
theorem stWord_of_out {val : Nat} (hout : j < i ∨ i + 2 ≤ j) : stWord p i val j = p j := by
  refine UInt8.toNat_inj.mp ?_
  rw [stWord_apply, if_neg (by omega), if_neg (by omega)]

theorem stDword_of_out {val : Nat} (hout : j < i ∨ i + 4 ≤ j) : stDword p i val j = p j := by
  refine UInt8.toNat_inj.mp ?_
  rw [stDword_apply, if_neg (by omega), if_neg (by omega), if_neg (by omega), if_neg (by omega)]

/-- **A word that has been stored is loaded.** -/
theorem ldWord_stWord (val : Nat) : ldWord (stWord p i val) i = val % 2 ^ 16 := by
  rw [ldWord_eq, stWord_apply, stWord_apply, if_pos rfl, if_neg (by omega), if_pos rfl]
  omega

/-- **A double word that has been stored is loaded.** -/
theorem ldDword_stDword (val : Nat) : ldDword (stDword p i val) i = val % 2 ^ 32 := by
  rw [ldDword_eq]
  simp only [stDword_apply, Nat.add_right_cancel_iff, Nat.left_eq_add, if_true, if_false,
    OfNat.ofNat_ne_zero, Nat.reduceEqDiff, Nat.succ_ne_self]
  omega

/-- Only its bytes decide about a word. -/
theorem ldWord_congr (h : ∀ k < 2, q (i + k) = p (i + k)) : ldWord q i = ldWord p i := by
  rw [ldWord, ldWord, h 1 (by decide), show q i = p i from h 0 (by decide)]

theorem ldDword_congr (h : ∀ k < 4, q (i + k) = p (i + k)) : ldDword q i = ldDword p i := by
  rw [ldDword, ldDword, h 1 (by decide), h 2 (by decide), h 3 (by decide), show q i = p i from h 0 (by decide)]

/-! ## Directory entries -/

/-- **An entry that is stored changes nothing else.** -/
theorem updateEntry_of_out (hout : j < fp.dir_ptr + 11 ∨ fp.dir_ptr + 32 ≤ j) : updateEntry fp win j = win j := by
  simp only [updateEntry, stClust]
  rw [stDword_of_out (by omega), stWord_of_out (by omega), stWord_of_out (by omega), stDword_of_out (by omega),
    Function.update_of_ne (by omega)]

/-- **The size that has been stored.** -/
theorem updateEntry_size (hsize : fp.fsize < 2 ^ 32) : ldDword (updateEntry fp win) (fp.dir_ptr + 28) = fp.fsize := by
  have hbytes : ∀ k < 4, updateEntry fp win (fp.dir_ptr + 28 + k)
      = stDword (Function.update win (fp.dir_ptr + 11) (win (fp.dir_ptr + 11) ||| 0x20)) (fp.dir_ptr + 28) fp.fsize
        (fp.dir_ptr + 28 + k) := fun k hk => by
    simp only [updateEntry, stClust]
    rw [stDword_of_out (by omega), stWord_of_out (by omega), stWord_of_out (by omega)]
  rw [ldDword_congr hbytes, ldDword_stDword, Nat.mod_eq_of_lt hsize]

/-- **The first cluster that has been stored.** -/
theorem updateEntry_clust (horg : fp.org_clust < 2 ^ 32) : ldClust (updateEntry fp win) fp.dir_ptr = fp.org_clust := by
  generalize hp : stDword (Function.update win (fp.dir_ptr + 11) (win (fp.dir_ptr + 11) ||| 0x20)) (fp.dir_ptr + 28)
    fp.fsize = p
  have hhigh : ldWord (updateEntry fp win) (fp.dir_ptr + 20) = fp.org_clust >>> 16 % 2 ^ 16 := by
    rw [← ldWord_stWord (p := stWord p (fp.dir_ptr + 26) fp.org_clust)]
    refine ldWord_congr fun k hk => ?_
    simp only [updateEntry, stClust, hp]
    rw [stDword_of_out (by omega)]
  have hlow : ldWord (updateEntry fp win) (fp.dir_ptr + 26) = fp.org_clust % 2 ^ 16 := by
    rw [← ldWord_stWord (p := p)]
    refine ldWord_congr fun k hk => ?_
    simp only [updateEntry, stClust, hp]
    rw [stDword_of_out (by omega), stWord_of_out (by omega)]
  rw [ldClust, hhigh, hlow, shiftLeft_or (Nat.mod_lt _ (by decide)), Nat.shiftRight_eq_div_pow]
  omega

/-- **The place of a directory entry**: behind the tables, and not in a cluster of `S`. -/
structure FatLayout.EntryPlace (L : FatLayout) (S : Set Nat) (sect ptr : Nat) : Prop where
  behind : L.fatbase + L.n_fats * L.fsize ≤ sect
  inside : sect < L.limit
  apart : ∀ c ∈ S, ¬ L.InCluster c sect
  room : ptr + 32 ≤ 512

/-- The window can be moved to a directory entry. -/
theorem FatLayout.EntryPlace.windowed (h : L.EntryPlace S sect ptr) : L.Windowed sect :=
  ⟨(Nat.le_add_right _ _).trans h.behind, h.inside, fun hcopy => absurd hcopy.2 (Nat.not_lt.mpr h.behind)⟩

/-- **What the directory entry says** about the first cluster and the size. -/
def Volume.Entry (v : Volume) (sect ptr org size : Nat) : Prop :=
  ldClust (v.view sect) ptr = org ∧ ldDword (v.view sect) (ptr + 28) = size

/-- **A directory sector is stored** through the window, and everything is flushed. -/
theorem Volume.Ready.storeEntry (h : v.Ready S) (hplace : v.layout.EntryPlace S sect ptr) :
    ∃ v₁, Fat.moveWindow sect v = .ok (.FR_OK, v₁) ∧ v₁.fs.win = v.view sect
      ∧ ∀ win, ∃ v₂, Fat.sync (setWin win v₁) = .ok (.FR_OK, v₂) ∧ DataStep S v v₂ l l ∧ v.SameData S v₂
        ∧ (∀ c, v.layout.IsCluster c → v₂.fat c = v.fat c) ∧ v₂.fs.wflag = false
        ∧ ∀ s, v.layout.fatbase + v.layout.n_fats * v.layout.fsize ≤ s → v₂.view s = Function.update v.view sect win s := by
  have hL := h.sound.wellFormed
  obtain ⟨v₁, hmove, hsound₁, hmoved₁, hsect₁, hwin₁⟩ := h.sound.moveWindow hplace.windowed
  refine ⟨v₁, hmove, hwin₁, fun win => ?_⟩
  have hne : v₁.fs.winsect ≠ 0 := hsect₁.symm ▸ hplace.windowed.ne_zero hL
  obtain ⟨hsound₂, hview₂, -⟩ := hsound₁.setWin hne win
  have hlayout₂ : (setWin win v₁).layout = v.layout := hmoved₁.layout
  obtain ⟨v₃, hsync, hsound₃, hmoved₃, hclean, hwindow⟩ := hsound₂.sync
  have hlayout : v₃.layout = v.layout := hmoved₃.layout.trans hlayout₂
  have hview : ∀ s, v.layout.fatbase ≤ s → ¬ v.layout.InCopies s → v₃.view s = Function.update v.view sect win s :=
    fun s hs hcopy => by
      rw [hmoved₃.view s (hlayout₂.symm ▸ hs) (hlayout₂.symm ▸ hcopy), hview₂, hsect₁, Function.update_apply,
        Function.update_apply, hmoved₁.view s hs hcopy]
  have hbehind : ∀ s, v.layout.fatbase + v.layout.n_fats * v.layout.fsize ≤ s →
      v₃.view s = Function.update v.view sect win s := fun s hs =>
    hview s ((Nat.le_add_right _ _).trans hs) fun hcopy => absurd hcopy.2 (Nat.not_lt.mpr hs)
  have hfat : ∀ c, v.layout.IsCluster c → v₃.fat c = v.fat c := fun c hc => by
    rw [Volume.fat, hlayout]
    refine FatLayout.entry_congr hc fun i hi => ?_
    have hin := hL.inTable hi
    have hout := (hin.windowed hL).2.2
    have hne : v.layout.fatbase + i / 512 ≠ sect := fun heq => by
      have := hin.2
      have := hplace.behind
      have := hL.fsize_le
      omega
    rw [FatLayout.tableByte, hview _ hin.1 hout, Function.update_of_ne hne]
    rfl
  have hfree : v₃.free = v.free := by
    ext c
    rw [Volume.mem_free, Volume.mem_free, hlayout]
    exact and_congr_right fun hc => by rw [hfat c hc]
  have hready : v₃.Ready S := by
    refine ⟨hsound₃, hlayout.symm ▸ h.clusters, fun c hc => ?_, fun c hc => h.free c (hfree ▸ hc), fun c hc hs => ?_⟩
    · rw [hlayout] at hc
      rw [hfat c hc]
      exact h.good c hc
    · rw [hlayout] at hs
      rcases hwindow with heq | hzero
      · exact hplace.apart c hc (hsect₁ ▸ heq ▸ hs)
      · have := hL.reserved
        have := hL.table_le
        have := hs.database_le
        omega
  have hsame : v.SameData S v₃ := fun c hc s hs => by
    have htables := hL.tables
    have hne : s ≠ sect := fun heq => hplace.apart c hc (heq ▸ hs)
    rw [← h.view hc hs, ← hready.view hc (hlayout.symm ▸ hs), hbehind s (htables.trans hs.database_le),
      Function.update_of_ne hne]
  refine ⟨v₃, hsync, ⟨hready, hlayout, fun _ => .inl, fun x hx hnot => absurd hx hnot, fun x hx _ _ => hfat x hx,
    fun hv => ?_, fun c hc _ s hs => hsame c hc s hs⟩, hsame, hfat, hclean, hbehind⟩
  rw [Volume.Counted, hfree, hmoved₃.free_clust]
  exact (hmoved₁.free_clust ▸ hv : v₁.fs.free_clust = 0xFFFFFFFF ∨ v₁.fs.free_clust = v.free.card)

/-! ## The file -/

/-- The first cluster of a file is a double word. -/
theorem FileData.org_lt (h : FileData S v fp l) (hready : v.Ready S) : fp.org_clust < 2 ^ 32 := by
  rw [h.org]
  cases l with
  | nil => decide
  | cons a l =>
    have := (hready.cluster_lt (h.owned a List.mem_cons_self)).2.2
    rw [List.headD_cons]
    omega

/-- **`f_sync` leaves the file as it is**; the directory entry says where it is and how long, and nothing is left to be
written back. -/
theorem FileOpen.fSync (h : FileOpen S v fp l) (hready : v.Ready S)
    (hplace : v.layout.EntryPlace S fp.dir_sect fp.dir_ptr) :
    ∃ fp' v', Fat.fSync fp v = .ok (.FR_OK, fp', v') ∧ fp' = { fp with FA__DIRTY := false, FA__WRITTEN := false }
      ∧ fileStream v' fp' l = fileStream v fp l ∧ DataStep S v v' l l ∧ FileOpen S v' fp' l
      ∧ (fp.FA__WRITTEN = true → v'.fs.wflag = false ∧ v'.Entry fp.dir_sect fp.dir_ptr fp.org_clust fp.fsize)
      ∧ (fp.FA__WRITTEN = false → v' = v)
      ∧ ∀ s j, v.layout.fatbase + v.layout.n_fats * v.layout.fsize ≤ s → (∀ c ∈ S, ¬ v.layout.InCluster c s) →
        s ≠ fp.dir_sect ∨ j < fp.dir_ptr ∨ fp.dir_ptr + 32 ≤ j → v'.view s j = v.view s j := by
  rw [Fat.fSync, h.validate hready]
  dsimp only
  rw [if_neg (not_not.mpr rfl)]
  by_cases hwritten : fp.FA__WRITTEN = false
  · have hclean := h.clean_of_unmarked hwritten
    have hself : fp = { fp with FA__DIRTY := false, FA__WRITTEN := false } :=
      congrArg₂ (fun d w => ({ fp with FA__DIRTY := d, FA__WRITTEN := w } : FIL)) hclean hwritten
    rw [if_pos hwritten]
    exact ⟨fp, v, rfl, hself, rfl, (hready.refl_step l).toDataStep, h,
      fun htrue => absurd (hwritten.symm.trans htrue) Bool.false_ne_true, fun _ => rfl, fun _ _ _ _ _ => rfl⟩
  · obtain ⟨fp₁, v₁, hflush, hfp₁, hstep₁, hdata₁, hfs₁, hbyte₁⟩ := h.flush hready
    have hlayout₁ : v₁.layout = v.layout := congrArg FATFS.toFatLayout hfs₁
    have hdir : fp₁.dir_sect = fp.dir_sect ∧ fp₁.dir_ptr = fp.dir_ptr ∧ fp₁.org_clust = fp.org_clust
        ∧ fp₁.fsize = fp.fsize ∧ fp₁.curr_clust = fp.curr_clust := by
      rw [hfp₁]
      exact ⟨rfl, rfl, rfl, rfl, rfl⟩
    obtain ⟨hsect, hptr, horg, hsize, hcurr⟩ := hdir
    obtain ⟨v₂, hmove, hwin, hstore⟩ := hstep₁.ready.storeEntry (l := l) (hlayout₁.symm ▸ hplace)
    obtain ⟨v₃, hsync, hstep₃, hsame₃, hfat₃, hclean, hview₃⟩ := hstore (updateEntry fp₁ v₂.fs.win)
    have hchain₃ : v₃.HasChain l := hdata₁.chain.congr hstep₃.layout fun x hx => hfat₃ x (hdata₁.chain.used x hx).1
    obtain ⟨hdata₃, hbyte₃⟩ :=
      hdata₁.onward hstep₃ hsame₃ hstep₁.ready hchain₃ List.prefix_rfl fp₁.curr_clust
    have hbyte : ∀ i < max fp.fsize fp.fptr,
        fileByte v₃ { fp with FA__DIRTY := false, FA__WRITTEN := false } l i = fileByte v fp l i := fun i hi => by
      have hlen := hdata₁.size
      rw [hsize] at hlen
      rw [← hbyte₁ i, ← hbyte₃ i (by have := h.settled; omega), hfp₁]
      rfl
    have hopen : FileOpen S v₃ { fp with FA__DIRTY := false, FA__WRITTEN := false } l := by
      rw [hfp₁] at hdata₃ hdata₁
      refine ⟨⟨⟨hdata₃.chain, hdata₃.owned, hdata₁.org, hdata₃.size, hdata₃.pos, hdata₃.buffer, hdata₃.loaded,
        hdata₃.coherent⟩, ?_, ?_⟩, h.fs, ?_, h.error, h.settled, h.small, fun hfalse => hfalse⟩
      · rw [hstep₃.layout, hlayout₁]
        exact h.curr
      · rw [hstep₃.layout, hlayout₁]
        exact h.sect
      · rw [hstep₃.layout, hlayout₁]
        exact h.id
    have hdirty : fp.FA__WRITTEN = true := by simpa using hwritten
    rw [hlayout₁] at hview₃
    rw [if_neg hwritten, hflush, kernel_ok_bind]
    dsimp only
    rw [if_neg (not_not.mpr rfl), hsect, hmove, kernel_ok_bind]
    dsimp only
    rw [if_neg (not_not.mpr rfl)]
    refine ⟨_, v₃, ?_, rfl, fileStream_congr rfl rfl hbyte,
      hstep₁.toDataStep.trans hstep₃ (fun _ hx => hx) (fun _ hx => hx), hopen, fun _ => ⟨hclean, ?_⟩,
      fun hfalse => absurd hfalse hwritten, fun s j hs hc hout => ?_⟩
    · show Fat.sync (setWin (updateEntry fp₁ v₂.fs.win) v₂) >>= _ = _
      rw [hsync, kernel_ok_bind, hfp₁]
      rfl
    · have hview := hview₃ fp.dir_sect hplace.behind
      rw [Function.update_self] at hview
      rw [Volume.Entry, hview, ← hptr, updateEntry_clust (hdata₁.org_lt hstep₁.ready), horg,
        updateEntry_size (hsize.symm ▸ h.small), hsize]
      exact ⟨rfl, rfl⟩
    · rw [hview₃ s hs, ← hstep₁.outside s hs hc]
      by_cases heq : s = fp.dir_sect
      · have hout := hout.resolve_left (not_not.mpr heq)
        rw [heq, Function.update_self, updateEntry_of_out (by omega), hwin]
      · rw [Function.update_of_ne heq]

/-! ## The disk alone -/

/-- The layout, with another number of the mount. -/
def FatLayout.withId (L : FatLayout) (id : Nat) : FatLayout := { L with id }

/-- **The volume has been mounted again**, with an empty window: nothing but its disk is left. -/
structure Volume.Remounted (v v₀ : Volume) : Prop where
  layout : v₀.layout = v.layout.withId v₀.fs.id
  disk : v₀.disk = v.disk
  window : v₀.fs.winsect = 0
  clean : v₀.fs.wflag = false

/-- What is seen of a volume that has been written back is what is on its disk. -/
theorem Volume.Ready.remounted_view (h : v.Ready S) (hclean : v.fs.wflag = false) (hv : v.Remounted v₀) :
    v₀.view = v.view ∧ v₀.fat = v.fat := by
  have hkey : v₀.fs.window.key = none := if_pos hv.window
  have hview : v₀.view = v.view := by
    rw [h.sound.view_clean hclean, ← hv.disk]
    exact Slot.seen_none hkey
  refine ⟨hview, funext fun c => ?_⟩
  rw [Volume.fat, hv.layout, hview]
  rfl

/-- **Nothing is lost** of a volume that has been written back. -/
theorem Volume.Ready.remounted (h : v.Ready S) (hclean : v.fs.wflag = false) (hv : v.Remounted v₀) : v₀.Ready S := by
  obtain ⟨-, hfat⟩ := h.remounted_view hclean hv
  have hL := h.sound.wellFormed
  have hwell : v₀.layout.WellFormed := by
    rw [hv.layout]
    exact ⟨hL.mounted, hL.csize, hL.n_fats, hL.reserved, hL.tables, hL.clusters, hL.room, hL.marks, hL.info⟩
  have hcluster : ∀ c, v₀.layout.IsCluster c ↔ v.layout.IsCluster c := fun c => by
    rw [hv.layout]
    rfl
  refine ⟨⟨hwell, ?_, fun s hs => ?_, .inl hv.window, fun hdirty => ?_, fun _ k hk => ?_⟩, fun c hc => ?_, fun c hc => ?_,
    fun c hc => ?_, fun c hc hs => ?_⟩
  · rw [hv.disk]
    exact h.sound.is_ata
  · rw [hv.disk]
    rw [hv.layout] at hs
    exact h.sound.answers s hs
  · exact absurd (hv.clean.symm.trans hdirty) Bool.false_ne_true
  · have hnone : v₀.fs.window.key = none := if_pos hv.window
    exact absurd (hnone.symm.trans hk) (Option.some_ne_none k).symm
  · exact (hcluster c).mpr (h.clusters c hc)
  · rw [hfat]
    exact h.good c ((hcluster c).mp hc)
  · obtain ⟨hc, hzero⟩ := Volume.mem_free.mp hc
    exact h.free c (Volume.mem_free.mpr ⟨(hcluster c).mp hc, hfat ▸ hzero⟩)
  · have := hwell.reserved
    have := hwell.table_le
    have := hs.database_le
    rw [hv.window] at this
    omega

/-- A chain of the table is one when the volume has been mounted again. -/
theorem Volume.HasChain.remounted (hl : v.HasChain l) (h : v.Ready S) (hclean : v.fs.wflag = false)
    (hv : v.Remounted v₀) : v₀.HasChain l := by
  obtain ⟨-, hfat⟩ := h.remounted_view hclean hv
  refine ⟨fun a ha => ?_, fun c hc => ?_⟩
  · rw [hv.layout, hfat]
    exact hl.chain a ha
  · rw [hv.layout, hfat]
    exact hl.used c hc

/-- **A file is opened** by its directory entry. -/
theorem Volume.Ready.openEntry (h : v.Ready S) (hplace : v.layout.EntryPlace S sect ptr) (hchain : v.HasChain l)
    (howned : ∀ x ∈ l, x ∈ S) (hentry : v.Entry sect ptr (l.headD 0) size)
    (hsize : size ≤ l.length * v.layout.csize * 512) (hsmall : size < 2 ^ 32) (fp : FIL) (rd wr : Bool) :
    ∃ fp' v', Fat.moveWindow sect v = .ok (.FR_OK, v') ∧ fp' = Fat.openEntry rd wr false ptr fp v' ∧ FileStep S v v' l l
      ∧ FileOpen S v' fp' l ∧ fp'.fptr = 0 ∧ fp'.fsize = size ∧ fp'.dir_sect = sect
      ∧ ∀ i < size, fileByte v' fp' l i = v.disk.sector (v.layout.sectorAt l (i / 512)) (i % 512) := by
  have hL := h.sound.wellFormed
  obtain ⟨v', hmove, hsound, hmoved, hsect, hwin⟩ := h.sound.moveWindow hplace.windowed
  have hlayout := hmoved.layout
  have hfat : ∀ c, v.layout.IsCluster c → v'.fat c = v.fat c := fun c hc => hmoved.fat hL hc
  have hready : v'.Ready S := by
    refine ⟨hsound, hlayout.symm ▸ h.clusters, fun c hc => ?_, fun c hc => h.free c (hmoved.free hL ▸ hc), fun c hc hs => ?_⟩
    · rw [hlayout] at hc
      rw [hfat c hc]
      exact h.good c hc
    · rw [hlayout, hsect] at hs
      exact hplace.apart c hc hs
  have hsame := h.sameData hready hmoved.stored.kept
  have horg : (Fat.openEntry rd wr false ptr fp v').org_clust = l.headD 0 := by
    show ldClust v'.fs.win ptr = _
    rw [hwin, hentry.1]
  have hlen : (Fat.openEntry rd wr false ptr fp v').fsize = size := by
    show ldDword v'.fs.win (ptr + 28) = _
    rw [hwin, hentry.2]
  have hdata : FileData S v' (Fat.openEntry rd wr false ptr fp v') l :=
    ⟨hchain.congr hlayout fun x hx => hfat x (hchain.used x hx).1, howned, horg, by rw [hlen, hlayout]; exact hsize,
      Nat.zero_le _, .inl rfl, fun hfalse => absurd hfalse Bool.false_ne_true, fun _ k hk => by cases hk⟩
  refine ⟨_, v', hmove, rfl, ⟨⟨hready, hlayout, fun _ => .inl, fun x hx hnot => absurd hx hnot, fun x hx _ _ => hfat x hx,
    hmoved.counted hL, fun c hc _ s hs => hsame c hc s hs⟩, fun s hs _ => hmoved.stored.view s hs⟩,
    ⟨⟨hdata, fun hpos => absurd hpos (Nat.lt_irrefl 0), fun hne => absurd rfl hne⟩, rfl, rfl, rfl, Nat.zero_le _, ?_,
      fun hfalse => absurd hfalse Bool.false_ne_true⟩, rfl, hlen, hsect, fun i hi => ?_⟩
  · rw [hlen]
    exact hsmall
  · have hk : i / 512 < l.length * v.layout.csize := by omega
    rw [fileByte, hdata.seen_clean rfl, hlayout]
    have hmem := FatLayout.getD_mem (FatLayout.div_csize_lt hk)
    rw [hsame _ (howned _ hmem) _ (FatLayout.sectorAt_inCluster hL)]

/-- **A file of which nothing has to be written is found again** on the disk alone, with all its bytes. -/
theorem FileOpen.reopened (h : FileOpen S v fp l) (hready : v.Ready S)
    (hplace : v.layout.EntryPlace S fp.dir_sect fp.dir_ptr)
    (hentry : v.Entry fp.dir_sect fp.dir_ptr fp.org_clust fp.fsize) (hdirty : fp.FA__DIRTY = false)
    (hclean : v.fs.wflag = false) (hv : v.Remounted v₀) (fp₀ : FIL) (rd wr : Bool) :
    ∃ fp' v', Fat.moveWindow fp.dir_sect v₀ = .ok (.FR_OK, v') ∧ fp' = Fat.openEntry rd wr false fp.dir_ptr fp₀ v'
      ∧ v'.Ready S ∧ FileOpen S v' fp' l ∧ fileStream v' fp' l = (fileStream v fp l).seek 0 := by
  obtain ⟨hview, -⟩ := hready.remounted_view hclean hv
  have hready₀ := hready.remounted hclean hv
  have hplace₀ : v₀.layout.EntryPlace S fp.dir_sect fp.dir_ptr := by
    rw [hv.layout]
    exact ⟨hplace.behind, hplace.inside, hplace.apart, hplace.room⟩
  have hentry₀ : v₀.Entry fp.dir_sect fp.dir_ptr (l.headD 0) fp.fsize := by
    rw [Volume.Entry, hview, ← h.org]
    exact hentry
  obtain ⟨fp', v', hmove, hfp', hstep, hopen, hptr, hsize, -, hbyte⟩ := hready₀.openEntry hplace₀
    (h.chain.remounted hready hclean hv) h.owned hentry₀ (by rw [hv.layout]; exact h.size) h.small fp₀ rd wr
  refine ⟨fp', v', hmove, hfp', hstep.ready, hopen, ?_⟩
  have hmax : max fp.fsize fp.fptr = fp.fsize := max_eq_left h.settled
  have hmax' : max fp'.fsize fp'.fptr = fp.fsize := by rw [hptr, hsize, max_eq_left (Nat.zero_le _)]
  ext1
  · simp only [fileStream, ofFun, Stream.seek, hmax, hmax']
    refine List.map_congr_left fun i hi => ?_
    rw [hbyte i (List.mem_range.mp hi), fileByte, h.seen_clean hdirty, hv.layout, hv.disk]
    rfl
  · simp only [fileStream, ofFun, Stream.seek, hptr, Nat.zero_min]

/-- **`f_sync` writes a dirty buffer to its sector**, whatever is stored there now. -/
theorem Volume.Ready.fSync_overwrites (h : v.Ready S) (hc : c ∈ S) (hin : v.layout.InCluster c fp.dsect)
    (hplace : v.layout.EntryPlace S fp.dir_sect fp.dir_ptr) (hvalid : validate fp v = .FR_OK)
    (hwritten : fp.FA__WRITTEN = true) (hdirty : fp.FA__DIRTY = true) :
    ∃ fp' v', Fat.fSync fp v = .ok (.FR_OK, fp', v') ∧ v'.disk.sector fp.dsect = fp.buf := by
  let disk : Disk := { v.disk with sector := storeSectors v.disk.sector fp.dsect [fp.buf] }
  have hwrite : diskWrite v.disk [fp.buf] fp.dsect = .ok (.RES_OK, disk) :=
    diskWrite_of_answers h.sound.is_ata fun i hi => by
      obtain rfl : i = 0 := by simpa using hi
      exact h.sound.answers _ (hin.lt_limit (h.clusters c hc))
  have hsector : disk.sector = Function.update v.disk.sector fp.dsect fp.buf := storeSectors_one ..
  have hsame : v.disk.Same disk := ⟨rfl, rfl, rfl⟩
  obtain ⟨fp₁, hfp₁⟩ : ∃ fp₁, fp₁ = { fp with FA__DIRTY := false } := ⟨_, rfl⟩
  have hflush : flushBuffer fp v = .ok (.FR_OK, fp₁, { v with disk }) := by
    rw [hfp₁]
    simp only [flushBuffer, if_neg (ne_false_of_eq_true hdirty), hwrite, kernel_ok_bind, ne_eq, not_true_eq_false, if_false]
    rfl
  have hplace₁ : v.layout.EntryPlace S fp₁.dir_sect fp.dir_ptr := by
    rw [hfp₁]
    exact hplace
  obtain ⟨hstep, -⟩ := h.disk_step (l := [c]) hsame (fun x hx => List.mem_singleton.mp hx ▸ hc) fun s hs => by
    rw [hsector, Function.update_of_ne]
    rintro rfl
    exact hs c (List.mem_singleton_self c) hin
  -- The entry and `FSInfo` are written after the buffer, to sectors that are none of the cluster.
  obtain ⟨v₂, hmove, -, hstore⟩ := hstep.ready.storeEntry (l := [c]) hplace₁
  obtain ⟨v₃, hsync, -, hdata, -⟩ := hstore (updateEntry fp₁ v₂.fs.win)
  rw [Fat.fSync, hvalid]
  dsimp only
  rw [if_neg (not_not.mpr rfl), if_neg (ne_false_of_eq_true hwritten), hflush, kernel_ok_bind]
  dsimp only
  rw [if_neg (not_not.mpr rfl), hmove, kernel_ok_bind]
  dsimp only
  rw [if_neg (not_not.mpr rfl)]
  refine ⟨{ fp₁ with FA__WRITTEN := false }, v₃, ?_, ?_⟩
  · show Fat.sync (setWin (updateEntry fp₁ v₂.fs.win) v₂) >>= _ = _
    rw [hsync, kernel_ok_bind]
    rfl
  · rw [hdata c hc fp.dsect hin]
    show disk.sector fp.dsect = _
    rw [hsector, Function.update_self]

/-! ## A buffer of what has been freed -/

/-- **`f_truncate` keeps a dirty buffer of a cluster that it frees.** Whatever is stored in the sector from then on, by
any file, is lost when `f_sync` is called for the truncated one. -/
theorem truncate_keeps_freed_buffer (h : FileOpen S v fp l) (hready : v.Ready S) (hmode : fp.FA_WRITE = true)
    (hplace : v.layout.EntryPlace S fp.dir_sect fp.dir_ptr) (hlt : fp.fptr < fp.fsize) (hdirty : fp.FA__DIRTY = true)
    (hc : c ∈ l.drop (fp.kept v)) (hin : v.layout.InCluster c fp.dsect) :
    ∃ fp' v', Fat.fTruncate fp v = .ok (.FR_OK, fp', v') ∧ c ∈ v'.free
      ∧ ∀ w : Volume, w.Ready S → w.layout = v.layout → ∃ fp'' w', Fat.fSync fp' w = .ok (.FR_OK, fp'', w')
        ∧ w'.disk.sector fp.dsect = fp.buf := by
  obtain ⟨org, v', hrun, -, hstep, -⟩ := h.truncateClusters hready hlt
  have hmem := List.mem_of_mem_drop hc
  have hnot : c ∉ l.take (fp.kept v) := fun htake => by
    have hnodup := h.chain.nodup
    rw [← List.take_append_drop (fp.kept v) l] at hnodup
    exact (List.nodup_append.mp hnodup).2.2 _ htake _ hc rfl
  have hcluster := (h.chain.used c hmem).1
  -- The buffer and `FA__DIRTY` are those from before the call.
  refine ⟨{ fp with fsize := fp.fptr, FA__WRITTEN := true, org_clust := org }, v', ?_,
    Volume.mem_free.mpr ⟨hstep.layout.symm ▸ hcluster, hstep.left c hmem hnot⟩, fun w hw hlayout => ?_⟩
  · rw [Fat.fTruncate, h.validate hready]
    dsimp only
    rw [if_neg (not_not.mpr rfl), if_neg (by rw [h.error]; decide), if_neg (by rw [hmode]; decide), if_pos hlt, hrun,
      kernel_ok_bind]
    dsimp only
    rw [if_neg (not_not.mpr rfl)]
    rfl
  · have hvalid : validate { fp with fsize := fp.fptr, FA__WRITTEN := true, org_clust := org } w = .FR_OK := by
      refine if_neg ?_
      rintro (hfs | hmounted | hid)
      · exact absurd (h.fs.symm.trans hfs) Bool.false_ne_true.symm
      · exact hw.sound.wellFormed.mounted hmounted
      · exact hid ((congrArg FatLayout.id hlayout).trans h.id.symm)
    obtain ⟨fp'', w', hsync, hsector⟩ := hw.fSync_overwrites (h.owned c hmem) (hlayout.symm ▸ hin)
      (hlayout.symm ▸ hplace) hvalid rfl hdirty
    exact ⟨fp'', w', hsync, hsector⟩

/-! ## A file with a dirty buffer -/

/-- The sector of `FSInfo` is none of a cluster. -/
theorem sampleVolume_ready {fat : Sector} (hgood : ∀ c ∈ {c | 2 ≤ c ∧ c < 6}, (sampleVolume fat).fat c ≠ 1) :
    (sampleVolume fat).Ready {c | 2 ≤ c ∧ c < 6} where
  sound := sampleVolume_sound fat
  clusters _ hc := hc
  good := hgood
  free c hc := (Volume.mem_free.mp hc).1
  apart c hc hin := by
    have hle : 4 + (c - 2) * 1 ≤ 0 := hin.1
    omega

theorem blankVolume_ready : blankVolume.Ready {c | 2 ≤ c ∧ c < 6} :=
  sampleVolume_ready fun c _ => by
    show blankVolume.fat c ≠ 1
    rw [blankVolume_fat]
    decide

/-- A volume with a file in the cluster 2. -/
def usedVolume : Volume := sampleVolume (Function.update (Function.update zeroSector 3 0xFF) 4 0x0F)

theorem usedVolume_fat : ∀ c < 6, usedVolume.fat c = if c = 2 then 0xFFF else 0 := by decide

theorem usedVolume_ready : usedVolume.Ready {c | 2 ≤ c ∧ c < 6} :=
  sampleVolume_ready fun c hc => by
    show usedVolume.fat c ≠ 1
    rw [usedVolume_fat c hc.2]
    split <;> decide

theorem usedVolume_chain : usedVolume.HasChain [2] := by
  have hfat : usedVolume.fat 2 = 0xFFF := usedVolume_fat 2 (by decide)
  refine ⟨fun a ha => ?_, fun c hc => ?_⟩
  · obtain rfl : 2 = a := Option.some.inj ha
    refine .last (if_neg fun h => ?_)
    have hlt : usedVolume.fat 2 < 6 := h.2.2
    omega
  · obtain rfl : c = 2 := List.mem_singleton.mp hc
    rw [hfat]
    exact ⟨⟨le_rfl, show 2 < 6 by decide⟩, by decide⟩

/-- The file in the cluster, with a dirty buffer and at its start. -/
def dirtyFile : FIL where
  fs := true
  id := 1
  FA_READ := true
  FA_WRITE := true
  FA__WRITTEN := true
  FA__DIRTY := true
  FA__ERROR := false
  fptr := 0
  fsize := 5
  org_clust := 2
  curr_clust := 2
  dsect := 4
  dir_sect := 3
  dir_ptr := 0
  buf := fun _ => 0x41

theorem dirtyFile_open : FileOpen {c | 2 ≤ c ∧ c < 6} usedVolume dirtyFile [2] where
  chain := usedVolume_chain
  owned c hc := by
    obtain rfl : c = 2 := List.mem_singleton.mp hc
    exact ⟨le_rfl, by decide⟩
  org := rfl
  size := show 5 ≤ 512 by decide
  pos := Nat.zero_le _
  buffer := .inr ⟨0, Nat.zero_lt_one, rfl⟩
  loaded _ := show 4 ≠ 0 by decide
  coherent h := absurd h.symm Bool.false_ne_true
  curr h := absurd h (Nat.lt_irrefl 0)
  sect h := absurd rfl h
  fs := rfl
  id := rfl
  error := rfl
  settled := Nat.zero_le _
  small := show 5 < 2 ^ 32 by decide
  written _ := rfl

theorem truncate_keeps_freed_buffer_sample :
    ∃ fp' v', Fat.fTruncate dirtyFile usedVolume = .ok (.FR_OK, fp', v') ∧ 2 ∈ v'.free
      ∧ ∃ fp'' w', Fat.fSync fp' blankVolume = .ok (.FR_OK, fp'', w') ∧ w'.disk.sector 4 = fun _ => 0x41 := by
  obtain ⟨fp', v', hrun, hfree, hsync⟩ := truncate_keeps_freed_buffer dirtyFile_open usedVolume_ready rfl
    ⟨le_rfl, show 3 < 8 by decide, fun c hc hin => by
      have hle : 4 + (c - 2) * 1 ≤ 3 := hin.1
      omega, show 32 ≤ 512 by decide⟩ (show 0 < 5 by decide) rfl (List.mem_singleton_self 2) ⟨le_rfl, show 4 < 5 by decide⟩
  exact ⟨fp', v', hrun, hfree, hsync blankVolume blankVolume_ready rfl⟩

end KaushOS.Fat
