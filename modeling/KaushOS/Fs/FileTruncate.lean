import KaushOS.Fs.FileSeek

/-! # Truncating a file (`kern/fs/ff.c`)

`f_truncate` drops what is behind the position of the file, and frees the clusters behind it. The buffer of
the file object is left as it is, also when its sector was in one of them.

* **`Volume.Ready.cutOff`** — the end of the chain of a file is taken off.
* **`FileOpen.fTruncate`** — what the function does to a file whose buffer is in front of what is freed. -/

namespace KaushOS.Fat

open LinkedChain WriteBack Streams

variable {v v' : Volume} {c d k z : Nat} {l l' l₁ l₂ : List Nat} {S : Set Nat} {fp fp' : FIL}

/-! ## The clusters of a shorter file -/

/-- **A chain has become shorter**: what has left it is free. -/
theorem Volume.Ready.shortened (h : v.Ready S) (hsound : v'.Sound) (hkept : v.Kept v') (hl : ∀ x ∈ l, x ∈ S)
    (hchain : v'.HasChain l') (htaken : ∀ x ∈ l', x ∈ l) (hleft : ∀ x ∈ l, x ∉ l' → v'.fat x = 0)
    (hothers : ∀ x, v.layout.IsCluster x → x ∉ l → v'.fat x = v.fat x) (hcounted : v.Counted → v'.Counted)
    (hwindow : v'.fs.winsect = v.fs.winsect ∨ v.layout.InTable v'.fs.winsect) :
    FileStep S v v' l l' ∧ v.SameData S v' := by
  have hready : v'.Ready S := by
    refine ⟨hsound, hkept.layout.symm ▸ h.clusters, fun c hc => ?_, fun c hc => ?_, fun c hc hs => ?_⟩
    · rw [hkept.layout] at hc
      by_cases hmem : c ∈ l
      · by_cases hmem' : c ∈ l'
        · have := (hchain.used c hmem').2
          omega
        · have := hleft c hmem hmem'
          omega
      · rw [hothers c hc hmem]
        exact h.good c hc
    · obtain ⟨hcluster, hzero⟩ := Volume.mem_free.mp hc
      by_cases hmem : c ∈ l
      · exact hl c hmem
      · rw [hkept.layout] at hcluster
        exact h.free c (Volume.mem_free.mpr ⟨hcluster, hothers c hcluster hmem ▸ hzero⟩)
    · rw [hkept.layout] at hs
      rcases hwindow with heq | hin
      · exact h.apart c hc (heq ▸ hs)
      · exact hin.not_inCluster h.sound.wellFormed hs
  have hsame := h.sameData hready hkept
  exact ⟨⟨⟨hready, hkept.layout, fun x hx => .inl (htaken x hx), hleft, fun x hx hnot _ => hothers x hx hnot, hcounted,
    fun c hc _ s hs => hsame c hc s hs⟩, fun s hs _ => hkept.view s hs⟩, hsame⟩

/-- **`remove_chain` for a file.** -/
theorem Volume.Ready.removeChain (h : v.Ready S) (hchain : v.HasChain (c :: l)) (hl : ∀ x ∈ c :: l, x ∈ S) :
    ∃ v', Fat.removeChain c v = .ok (.FR_OK, v') ∧ FileStep S v v' (c :: l) [] ∧ v.SameData S v' := by
  obtain ⟨res, v', l', hrun, hsound, hremoved, hwindow⟩ :=
    h.sound.removeChain (hchain.used c List.mem_cons_self).1
  obtain ⟨rfl, hfreed, hothers⟩ := hchain.removed hremoved
  exact ⟨v', hrun, h.shortened hsound hremoved.kept hl v'.hasChain_nil (fun x hx => absurd hx List.not_mem_nil)
    (fun x hx _ => hfreed x hx) hothers hremoved.counted hwindow⟩

/-- **`f_truncate` takes off the clusters** behind the current one. -/
theorem Volume.Ready.cutBehind (h : v.Ready S) (fp : FIL) (hchain : v.HasChain (l₁ ++ z :: l₂)) (hl : ∀ x ∈ l₁ ++ z :: l₂, x ∈ S)
    (hcurr : fp.curr_clust = z) :
    ∃ v', Fat.cutBehind fp v = .ok (.FR_OK, v') ∧ FileStep S v v' (l₁ ++ z :: l₂) (l₁ ++ [z]) ∧ v.SameData S v'
      ∧ v'.HasChain (l₁ ++ [z]) := by
  have hL := h.sound.wellFormed
  have hz := (hchain.used z (List.mem_append_right l₁ List.mem_cons_self)).1
  obtain ⟨v₁, hget, hsound₁, hmoved, hin⟩ := h.sound.getFat hz
  have hstep₁ := h.moved_step hsound₁ hmoved hin (l₁ ++ z :: l₂)
  have hsame₁ := h.sameData hstep₁.ready hmoved.stored.kept
  have hchain₁ : v₁.HasChain (l₁ ++ z :: l₂) :=
    hchain.congr hmoved.layout fun x hx => hmoved.fat hL (hchain.used x hx).1
  have hle : v.fat z ≤ v.layout.mark := FatLayout.entry_le_mark _ _ _
  have hlt := v.layout.mark_lt
  have hn : v₁.fs.n_fatent = v.layout.n_fatent := congrArg FatLayout.n_fatent hmoved.layout
  have hused := (hchain.used z (List.mem_append_right l₁ List.mem_cons_self)).2
  rw [Fat.cutBehind, hcurr, hget, kernel_ok_bind]
  dsimp only
  rw [if_neg (by omega), if_neg (by omega), hn]
  cases l₂ with
  | nil =>
    rw [if_neg (Nat.not_lt.mpr hchain.last)]
    exact ⟨v₁, rfl, hstep₁, hsame₁, hchain₁⟩
  | cons d l₂ =>
    have hnext := hchain.next
    have hd := (hchain.used d (List.mem_append_right l₁ (List.mem_cons_of_mem z List.mem_cons_self))).1
    obtain ⟨v₂, v₃, hput, hrun, hsound₃, hchain₃, hkept, hfreed, hothers, hcounted, hin₃⟩ := hsound₁.cutOff hchain₁
    have hkept' := hmoved.stored.kept.trans hkept
    rw [hnext, if_pos hd.2, hput, kernel_ok_bind]
    dsimp only
    rw [if_pos rfl, hrun]
    rw [hmoved.layout] at hin₃
    have hmem : ∀ x, x ∈ l₁ ++ z :: d :: l₂ ↔ x ∈ l₁ ++ [z] ∨ x ∈ d :: l₂ := fun x => by
      rw [← List.singleton_append, ← List.append_assoc, List.mem_append]
    obtain ⟨hstep, hsame⟩ := h.shortened hsound₃ hkept' hl hchain₃ (fun x hx => (hmem x).mpr (.inl hx))
      (fun x hx hnot => hfreed x (((hmem x).mp hx).resolve_left hnot))
      (fun x hx hnot => (hothers x (hmoved.layout.symm ▸ hx) hnot).trans (hmoved.fat hL hx))
      (hcounted ∘ hmoved.counted hL) (.inr hin₃)
    exact ⟨v₃, rfl, hstep, hsame, hchain₃⟩

/-! ## The file -/

/-- **The clusters that a file keeps** when it is truncated. -/
def FIL.kept (fp : FIL) (v : Volume) : Nat := if fp.fptr = 0 then 0 else (fp.fptr - 1) / 512 / v.layout.csize + 1

/-- **The data of a shorter file**, whose buffer is not in a cluster that has been taken off. -/
theorem FileData.shorter (h : FileData S v fp l) (hready : v.Ready S) (hlayout : v'.layout = v.layout)
    (hsame : v.SameData S v') (hchain : v'.HasChain l') (hinitial : l' <+: l)
    (hpos : fp.fptr ≤ l'.length * v.layout.csize * 512)
    (hbuffer : ∀ x ∈ l, x ∉ l' → ¬ v.layout.InCluster x fp.dsect) :
    FileData S v' { fp with fsize := fp.fptr, FA__WRITTEN := true, org_clust := l'.headD 0 } l'
      ∧ ∀ i < fp.fptr, fileByte v' { fp with fsize := fp.fptr, FA__WRITTEN := true, org_clust := l'.headD 0 } l' i
        = fileByte v fp l i := by
  have hlen := Nat.mul_le_mul_right v.layout.csize hinitial.length_le
  have hat : ∀ k < l'.length * v.layout.csize, v'.layout.sectorAt l' k = v.layout.sectorAt l k := fun k hk => by
    rw [hlayout]
    exact (FatLayout.sectorAt_initial hinitial hk).symm
  have hheld : fp.dsect = 0 ∨ ∃ k < l'.length * v.layout.csize, fp.dsect = v.layout.sectorAt l k := by
    refine h.buffer.imp_right ?_
    rintro ⟨k, hk, heq⟩
    refine ⟨k, ?_, heq⟩
    by_contra hnot
    have hplace := FatLayout.div_csize_lt hk
    have hcut : l'.length ≤ k / v.layout.csize :=
      (Nat.le_div_iff_mul_le hready.sound.wellFormed.csize_pos).mpr (Nat.not_lt.mp hnot)
    have hin : v.layout.InCluster (l.getD (k / v.layout.csize) 0) fp.dsect :=
      heq ▸ FatLayout.sectorAt_inCluster hready.sound.wellFormed
    refine hbuffer _ (FatLayout.getD_mem hplace) (fun hmem => ?_) hin
    obtain ⟨t, rfl⟩ := hinitial
    rw [List.getD_eq_getElem?_getD, List.getElem?_append_right hcut,
      List.getElem?_eq_getElem (by rw [List.length_append] at hplace; omega), Option.getD_some] at hmem
    exact (List.nodup_append.mp h.chain.nodup).2.2 _ hmem _ (List.getElem_mem _) rfl
  refine ⟨⟨hchain, fun x hx => h.owned x (hinitial.subset hx), rfl, hlayout.symm ▸ hpos, hlayout.symm ▸ hpos, ?_, h.loaded,
    h.coherent_same hready fun c hc => hsame c (h.owned c hc)⟩, fun i hi => ?_⟩
  · refine hheld.imp_right ?_
    rintro ⟨k, hk, heq⟩
    exact ⟨k, hlayout.symm ▸ hk, heq.trans (hat k hk).symm⟩
  · have hk : i / 512 < l'.length * v.layout.csize := by omega
    exact h.byte_same hready (fun c hc => hsame c (h.owned c hc)) rfl (hk.trans_le hlen) (hat _ hk)

/-- **What is left of the chain.** -/
theorem FileAt.truncateClusters (h : FileAt S v fp l) (hready : v.Ready S) (hlt : fp.fptr < fp.fsize) :
    ∃ org v', Fat.truncateClusters { fp with fsize := fp.fptr, FA__WRITTEN := true } v
        = .ok (.FR_OK, { fp with fsize := fp.fptr, FA__WRITTEN := true, org_clust := org }, v')
      ∧ org = (l.take (fp.kept v)).headD 0 ∧ FileStep S v v' l (l.take (fp.kept v)) ∧ v.SameData S v'
      ∧ v'.HasChain (l.take (fp.kept v)) ∧ fp.fptr ≤ (l.take (fp.kept v)).length * v.layout.csize * 512
      ∧ (0 < fp.fptr → (l.take (fp.kept v))[(fp.fptr - 1) / 512 / v.layout.csize]? = some fp.curr_clust) := by
  have horg : fp.org_clust = l.headD 0 := h.org
  have hsize := h.size
  unfold Fat.truncateClusters
  by_cases hzero : fp.fptr = 0
  · have hkept : fp.kept v = 0 := if_pos hzero
    cases l with
    | nil =>
      rw [List.length_nil, Nat.zero_mul, Nat.zero_mul] at hsize
      omega
    | cons c l =>
      obtain ⟨v', hrun, hstep, hsame⟩ := hready.removeChain h.chain h.owned
      rw [List.headD_cons] at horg
      rw [if_pos hzero, hkept, List.take_zero]
      dsimp only
      rw [horg, hrun, kernel_ok_bind]
      exact ⟨0, v', rfl, rfl, hstep, hsame, v'.hasChain_nil, by omega, fun hpos => absurd hzero hpos.ne'⟩
  · have hcurr := h.curr (Nat.pos_of_ne_zero hzero)
    obtain ⟨hplace, hget⟩ := List.getElem?_eq_some_iff.mp hcurr
    have hkept : fp.kept v = (fp.fptr - 1) / 512 / v.layout.csize + 1 := if_neg hzero
    obtain ⟨m, hm⟩ : ∃ m, m = (fp.fptr - 1) / 512 / v.layout.csize := ⟨_, rfl⟩
    rw [← hm] at hcurr hplace hkept ⊢
    simp only [← hm] at hget
    have htake : l.take (m + 1) = l.take m ++ [l[m]] := (List.take_append_getElem hplace).symm
    have hsplit : l.take m ++ l[m] :: l.drop (m + 1) = l := by
      rw [List.cons_getElem_drop_succ, List.take_append_drop]
    have hlen : (l.take (m + 1)).length = m + 1 := by rw [List.length_take, min_eq_left hplace]
    obtain ⟨v', hrun, hstep, hsame, hchain⟩ := hready.cutBehind { fp with fsize := fp.fptr, FA__WRITTEN := true }
      (hsplit.symm ▸ h.chain) (hsplit.symm ▸ h.owned) hget.symm
    rw [hsplit, ← htake] at hstep
    rw [← htake] at hchain
    rw [if_neg hzero, hrun, hkept, kernel_ok_bind]
    refine ⟨fp.org_clust, v', rfl, ?_, hstep, hsame, hchain, ?_, fun _ => ?_⟩
    · rw [horg]
      cases l with
      | nil => rfl
      | cons a l => rfl
    · rw [hlen, hm, Nat.mul_assoc]
      have hdiv := Nat.lt_div_mul_add (a := fp.fptr - 1) (b := v.layout.csize * 512)
        (Nat.mul_pos hready.sound.wellFormed.csize_pos (by decide))
      rw [div_cluster] at hdiv
      rw [Nat.succ_mul]
      omega
    · rw [List.getElem?_take, if_pos (Nat.lt_succ_self m), hcurr]

/-- **The clusters that `f_truncate` frees**: those that the current one leads to, or all. -/
def FIL.Freed (fp : FIL) (v : Volume) (x : Nat) : Prop :=
  if fp.fptr = 0 then v.layout.Led v.fat fp.org_clust x else v.layout.Led v.fat (v.fat fp.curr_clust) x

/-- The clusters that are not kept are freed. -/
theorem FileAt.freed {x : Nat} (h : FileAt S v fp l) (hx : x ∈ l.drop (fp.kept v)) : fp.Freed v x := by
  unfold FIL.Freed
  unfold FIL.kept at hx
  by_cases hzero : fp.fptr = 0
  · rw [if_pos hzero] at hx ⊢
    rw [h.org]
    have hchain := h.chain
    cases l with
    | nil => exact absurd hx List.not_mem_nil
    | cons c l => exact (hchain.led x).mpr hx
  · have hcurr := h.curr (Nat.pos_of_ne_zero hzero)
    obtain ⟨hplace, hget⟩ := List.getElem?_eq_some_iff.mp hcurr
    rw [if_neg hzero] at hx ⊢
    generalize (fp.fptr - 1) / 512 / v.layout.csize = m at *
    have hmore : m + 1 < l.length := by
      by_contra hnot
      rw [List.drop_of_length_le (Nat.not_lt.mp hnot)] at hx
      exact List.not_mem_nil hx
    have hsplit : l.take (m + 1) ++ l[m + 1] :: l.drop (m + 2) = l := by
      rw [List.cons_getElem_drop_succ, List.take_append_drop]
    have hrest : v.HasChain (l[m + 1] :: l.drop (m + 2)) := (hsplit.symm ▸ h.chain : v.HasChain _).suffix
    rw [← hget, h.chain.fat_getElem hmore, hrest.led, List.cons_getElem_drop_succ]
    exact hx

/-- What is behind the position is dropped. -/
theorem fileStream_truncate (hsize : fp'.fsize = fp.fptr) (hptr : fp'.fptr = fp.fptr)
    (hbyte : ∀ i < fp.fptr, fileByte v' fp' l' i = fileByte v fp l i) :
    fileStream v' fp' l' = (fileStream v fp l).truncate := by
  refine Eq.trans ?_ (ofFun_truncate (le_max_right _ _)).symm
  ext1
  · simp only [fileStream, ofFun, hsize, hptr, max_self]
    exact List.map_congr_left fun i hi => hbyte i (List.mem_range.mp hi)
  · exact hptr

/-- **`f_truncate` drops what is behind the position**, where the buffer is not in a cluster that is freed by that. -/
theorem FileOpen.fTruncate (h : FileOpen S v fp l) (hready : v.Ready S) (hmode : fp.FA_WRITE = true)
    (hbuffer : fp.fptr < fp.fsize → ∀ x, fp.Freed v x → ¬ v.layout.InCluster x fp.dsect) :
    ∃ fp' v' l', Fat.fTruncate fp v = .ok (.FR_OK, fp', v') ∧ fileStream v' fp' l' = (fileStream v fp l).truncate
      ∧ FileStep S v v' l l' ∧ l' <+: l ∧ FileOpen S v' fp' l' ∧ fp'.handle = fp.handle ∧ fp.Marked fp' := by
  have hsettled := h.settled
  rw [Fat.fTruncate, h.validate hready]
  dsimp only
  rw [if_neg (not_not.mpr rfl), if_neg (by rw [h.error]; decide), if_neg (by rw [hmode]; decide)]
  by_cases hlt : fp.fptr < fp.fsize
  · obtain ⟨org, v', hrun, horg, hstep, hsame, hchain, hpos, hcurr⟩ := h.truncateClusters hready hlt
    rw [if_pos hlt, hrun, kernel_ok_bind]
    dsimp only
    have hinitial : l.take (fp.kept v) <+: l := List.take_prefix _ _
    obtain ⟨hdata, hbyte⟩ := h.shorter hready hstep.layout hsame hchain hinitial hpos fun x hx hnot => by
      rw [← List.take_append_drop (fp.kept v) l] at hx
      exact hbuffer hlt x (h.freed ((List.mem_append.mp hx).resolve_left hnot))
    rw [← horg] at hdata hbyte
    rw [if_neg (not_not.mpr rfl)]
    refine ⟨_, v', l.take (fp.kept v), rfl, fileStream_truncate rfl rfl hbyte, hstep, hinitial, ⟨⟨hdata, ?_, ?_⟩, h.fs, ?_,
      h.error, le_rfl, hsettled.trans_lt h.small, fun _ => rfl⟩, rfl, fun hclean => absurd hclean.symm Bool.false_ne_true⟩
    · rw [hstep.layout]
      exact hcurr
    · intro hmod
      rw [hstep.layout]
      refine (h.sect hmod).trans (FatLayout.sectorAt_initial hinitial ?_)
      dsimp only at hmod
      omega
    · rw [hstep.layout]
      exact h.id
  · rw [if_neg hlt]
    exact ⟨fp, v, l, rfl, fileStream_truncate (by omega) rfl fun _ _ => rfl, hready.refl_step l, List.prefix_rfl, h, rfl,
      fun hclean => ⟨hclean, rfl, rfl⟩⟩

/-- A file that has not been opened for writing. -/
theorem FileOpen.fTruncate_denied (h : FileOpen S v fp l) (hready : v.Ready S) (hmode : fp.FA_WRITE = false) :
    Fat.fTruncate fp v = .ok (.FR_DENIED, fp, v) := by
  rw [Fat.fTruncate, h.validate hready]
  dsimp only
  rw [if_neg (not_not.mpr rfl), if_neg (by rw [h.error]; decide), if_pos hmode]
  rfl

end KaushOS.Fat
