import KaushOS.Fs.Window

/-! # Entries of the allocation table (`kern/fs/ff.c`)

An entry of the table has 12, 16 or 32 bits. Entries of 12 bits share bytes with their neighbours and
may lie in two sectors.

* **`getFat`**, **`putFat`** — the functions.
* **`Volume.fat`** — the table of a volume, as a function of the clusters.
* **`Volume.Sound.getFat`**, **`Volume.Sound.putFat`** — an entry is read and written; all others stay
  as they are, and so does everything outside of the tables. **`getFat_putFat`** puts them together. -/

namespace KaushOS.Fat

open WriteBack

/-! ## The functions -/

/-- A byte of the window is stored to. -/
def setByte (i : Nat) (b : UInt8) (v : Volume) : Volume :=
  { v with fs := { v.fs with win := Function.update v.fs.win i b } }

/-- `fs->wflag = 1`. -/
def setDirty (v : Volume) : Volume := { v with fs := { v.fs with wflag := true } }

/-- **`get_fat(fs, clst)`.** -/
def getFat (clst : Nat) (v : Volume) : Kernel (Nat × Volume) := do
  if clst < 2 ∨ v.fs.n_fatent ≤ clst then return (1, v)
  else
    match v.fs.fs_type with
    | .FS_FAT12 =>
      let bc := clst + clst / 2
      let (res, v) ← moveWindow (dword (v.fs.fatbase + bc / 512)) v
      if res ≠ .FR_OK then return (0xFFFFFFFF, v)
      else
        let wc := (v.fs.win (bc % 512)).toNat
        let (res, v) ← moveWindow (dword (v.fs.fatbase + (bc + 1) / 512)) v
        if res ≠ .FR_OK then return (0xFFFFFFFF, v)
        else
          let wc := (v.fs.win ((bc + 1) % 512)).toNat <<< 8 ||| wc
          return (if clst &&& 1 ≠ 0 then wc >>> 4 else wc &&& 0xFFF, v)
    | .FS_FAT16 =>
      let (res, v) ← moveWindow (dword (v.fs.fatbase + clst / 256)) v
      if res ≠ .FR_OK then return (0xFFFFFFFF, v)
      else return (ldWord v.fs.win (clst * 2 % 512), v)
    | .FS_FAT32 =>
      let (res, v) ← moveWindow (dword (v.fs.fatbase + clst / 128)) v
      if res ≠ .FR_OK then return (0xFFFFFFFF, v)
      else return (ldDword v.fs.win (clst * 4 % 512) &&& 0x0FFFFFFF, v)
    | .unmounted => return (0xFFFFFFFF, v)

/-- The first byte that `put_fat` stores for an entry of 12 bits. -/
def lowByte (clst val : Nat) (p : UInt8) : UInt8 :=
  if clst &&& 1 ≠ 0 then UInt8.ofNat ((val % 256) <<< 4 ||| (p.toNat &&& 0x0F)) else UInt8.ofNat val

/-- The second byte. -/
def highByte (clst val : Nat) (p : UInt8) : UInt8 :=
  if clst &&& 1 ≠ 0 then UInt8.ofNat (val >>> 4)
  else UInt8.ofNat ((p.toNat &&& 0xF0) ||| ((val >>> 8) % 256 &&& 0x0F))

/-- **`put_fat(fs, clst, val)`.** The window gets dirty also where it could not be moved. -/
def putFat (clst val : Nat) (v : Volume) : Kernel (FRESULT × Volume) := do
  if clst < 2 ∨ v.fs.n_fatent ≤ clst then return (.FR_INT_ERR, v)
  else
    match v.fs.fs_type with
    | .FS_FAT12 =>
      let bc := clst + clst / 2
      let (res, v) ← moveWindow (dword (v.fs.fatbase + bc / 512)) v
      if res ≠ .FR_OK then return (res, setDirty v)
      else
        let v := setDirty (setByte (bc % 512) (lowByte clst val (v.fs.win (bc % 512))) v)
        let (res, v) ← moveWindow (dword (v.fs.fatbase + (bc + 1) / 512)) v
        if res ≠ .FR_OK then return (res, setDirty v)
        else return (.FR_OK, setDirty (setByte ((bc + 1) % 512) (highByte clst val (v.fs.win ((bc + 1) % 512))) v))
    | .FS_FAT16 =>
      let (res, v) ← moveWindow (dword (v.fs.fatbase + clst / 256)) v
      if res ≠ .FR_OK then return (res, setDirty v)
      else
        let win := stWord v.fs.win (clst * 2 % 512) (val % 2 ^ 16)
        return (.FR_OK, setDirty { v with fs := { v.fs with win } })
    | .FS_FAT32 =>
      let (res, v) ← moveWindow (dword (v.fs.fatbase + clst / 128)) v
      if res ≠ .FR_OK then return (res, setDirty v)
      else
        let val := val ||| (ldDword v.fs.win (clst * 4 % 512) &&& 0xF0000000)
        let win := stDword v.fs.win (clst * 4 % 512) val
        return (.FR_OK, setDirty { v with fs := { v.fs with win } })
    | .unmounted => return (.FR_INT_ERR, setDirty v)

/-! ## Bytes and words -/

theorem shiftLeft_or {a b i : Nat} (hb : b < 2 ^ i) : a <<< i ||| b = a * 2 ^ i + b := by
  rw [← Nat.shiftLeft_add_eq_or_of_lt hb, Nat.shiftLeft_eq]

/-- A byte is less than 256. -/
theorem byte_lt (b : UInt8) : b.toNat < 2 ^ 8 := b.toNat_lt

/-- **A word** is put together from its bytes. -/
theorem ldWord_eq (p : Sector) (i : Nat) : ldWord p i = (p (i + 1)).toNat * 2 ^ 8 + (p i).toNat :=
  shiftLeft_or (byte_lt _)

/-- **A double word** is put together from its bytes. -/
theorem ldDword_eq (p : Sector) (i : Nat) :
    ldDword p i
      = (p (i + 3)).toNat * 2 ^ 24 + (p (i + 2)).toNat * 2 ^ 16 + (p (i + 1)).toNat * 2 ^ 8 + (p i).toNat := by
  have hstep : ∀ {a b : Nat} (k : Nat), b < 2 ^ 8 → a <<< (8 + k) ||| b <<< k = (a * 2 ^ 8 + b) <<< k := by
    intro a b k hb
    rw [← shiftLeft_or hb, Nat.shiftLeft_or_distrib, ← Nat.shiftLeft_add]
  rw [ldDword, hstep 16 (byte_lt _), hstep 8 (byte_lt _), shiftLeft_or (byte_lt _)]
  omega

/-- The bytes after a store of a word. -/
theorem stWord_apply (p : Sector) (i val j : Nat) :
    (stWord p i val j).toNat
      = if j = i + 1 then val / 2 ^ 8 % 2 ^ 8 else if j = i then val % 2 ^ 8 else (p j).toNat := by
  simp only [stWord, Function.update_apply, apply_ite UInt8.toNat, UInt8.toNat_ofNat', Nat.shiftRight_eq_div_pow]
  split
  · omega
  · rfl

/-- The bytes after a store of a double word. -/
theorem stDword_apply (p : Sector) (i val j : Nat) :
    (stDword p i val j).toNat
      = if j = i + 3 then val / 2 ^ 24 % 2 ^ 8 else if j = i + 2 then val / 2 ^ 16 % 2 ^ 8
        else if j = i + 1 then val / 2 ^ 8 % 2 ^ 8 else if j = i then val % 2 ^ 8 else (p j).toNat := by
  simp only [stDword, Function.update_apply, apply_ite UInt8.toNat, UInt8.toNat_ofNat', Nat.shiftRight_eq_div_pow]
  split
  · rfl
  · split
    · rfl
    · split
      · omega
      · rfl

/-- The lowest bit says whether a cluster is odd. -/
theorem and_one_ne_zero {c : Nat} : ¬ (c &&& 1 = 0) ↔ c % 2 = 1 := by
  rw [Nat.and_one_is_mod]
  omega

/-- **The first byte of an entry of 12 bits.** -/
theorem lowByte_toNat (c val : Nat) (p : UInt8) :
    (lowByte c val p).toNat = if c % 2 = 1 then val % 16 * 16 + p.toNat % 16 else val % 256 := by
  unfold lowByte
  simp only [ne_eq, and_one_ne_zero]
  split
  · have hlow : p.toNat &&& 0x0F = p.toNat % 16 := Nat.and_two_pow_sub_one_eq_mod _ 4
    rw [hlow, shiftLeft_or (by omega), UInt8.toNat_ofNat']
    omega
  · rw [UInt8.toNat_ofNat']

/-- **The second byte.** -/
theorem highByte_toNat (c val : Nat) (p : UInt8) :
    (highByte c val p).toNat
      = if c % 2 = 1 then val / 16 % 256 else p.toNat / 16 * 16 + val / 256 % 16 := by
  unfold highByte
  simp only [ne_eq, and_one_ne_zero]
  split
  · rw [UInt8.toNat_ofNat', Nat.shiftRight_eq_div_pow]
  · have hhigh : ∀ b < 2 ^ 8, b &&& 0xF0 = (b / 16) <<< 4 := by decide +kernel
    have hlow : (val >>> 8) % 256 &&& 0x0F = (val >>> 8) % 256 % 16 := Nat.and_two_pow_sub_one_eq_mod _ 4
    have hp := byte_lt p
    rw [hhigh _ hp, hlow, shiftLeft_or (by omega), UInt8.toNat_ofNat', Nat.shiftRight_eq_div_pow]
    omega

/-- The bits of an entry in a double word that keeps its upper bits. -/
theorem or_and_mod (x val : Nat) : (val ||| (x &&& 0xF0000000)) % 2 ^ 28 = val % 2 ^ 28 := by
  rw [Nat.or_mod_two_pow, Nat.and_mod_two_pow, show 0xF0000000 % 2 ^ 28 = 0 from rfl, Nat.and_zero, Nat.or_zero]

/-! ## The table of a volume -/

/-- **A byte of the table**, by its offset. -/
def FatLayout.tableByte (L : FatLayout) (f : Nat → Sector) (i : Nat) : Nat :=
  (f (L.fatbase + i / 512) (i % 512)).toNat

/-- **An entry of the table.** -/
def FatLayout.entry (L : FatLayout) (f : Nat → Sector) (c : Nat) : Nat :=
  match L.fs_type with
  | .unmounted => 0
  | .FS_FAT12 =>
    let wc := L.tableByte f (c + c / 2 + 1) * 2 ^ 8 + L.tableByte f (c + c / 2)
    if c % 2 = 1 then wc / 2 ^ 4 else wc % 2 ^ 12
  | .FS_FAT16 => L.tableByte f (2 * c + 1) * 2 ^ 8 + L.tableByte f (2 * c)
  | .FS_FAT32 =>
    (L.tableByte f (4 * c + 3) * 2 ^ 24 + L.tableByte f (4 * c + 2) * 2 ^ 16 + L.tableByte f (4 * c + 1) * 2 ^ 8
      + L.tableByte f (4 * c)) % 2 ^ 28

/-- **The table of a volume.** -/
def Volume.fat (v : Volume) (c : Nat) : Nat := v.layout.entry v.view c

/-- **The clusters of a volume.** -/
def FatLayout.IsCluster (L : FatLayout) (c : Nat) : Prop := 2 ≤ c ∧ c < L.n_fatent

/-- Entries have 12, 16 or 28 bits. -/
theorem FatLayout.mark_eq (L : FatLayout) :
    L.mark + 1 = match L.fs_type with
      | .unmounted => 1
      | .FS_FAT12 => 2 ^ 12
      | .FS_FAT16 => 2 ^ 16
      | .FS_FAT32 => 2 ^ 28 := by
  unfold mark
  cases L.fs_type <;> rfl

theorem FatLayout.mark_lt (L : FatLayout) : L.mark < 2 ^ 28 := by
  unfold mark
  cases L.fs_type <;> decide

instance (L : FatLayout) (c : Nat) : Decidable (L.IsCluster c) := inferInstanceAs (Decidable (_ ∧ _))

variable {L : FatLayout} {v v' v'' : Volume} {s c c' val i : Nat} {f g : Nat → Sector}

theorem FatLayout.tableByte_lt (L : FatLayout) (f : Nat → Sector) (i : Nat) : L.tableByte f i < 2 ^ 8 := byte_lt _

/-- The bytes of the table are in the sectors of the table. -/
theorem FatLayout.WellFormed.inTable (hL : L.WellFormed) (hi : i < L.tableBytes) :
    L.InTable (L.fatbase + i / 512) := by
  have := hL.room
  exact ⟨Nat.le_add_right _ _, Nat.add_lt_add_left (Nat.div_lt_of_lt_mul (by omega)) _⟩

/-- **An entry depends on the bytes of the table only.** -/
theorem FatLayout.entry_congr (hc : L.IsCluster c)
    (h : ∀ i < L.tableBytes, L.tableByte f i = L.tableByte g i) : L.entry f c = L.entry g c := by
  obtain ⟨htwo, hlt⟩ := hc
  unfold entry tableBytes at *
  cases htype : L.fs_type with
  | unmounted => rfl
  | FS_FAT12 =>
    rw [htype] at h
    dsimp only at h ⊢
    rw [h _ (by omega), h _ (by omega)]
  | FS_FAT16 =>
    rw [htype] at h
    dsimp only at h ⊢
    rw [h _ (by omega), h _ (by omega)]
  | FS_FAT32 =>
    rw [htype] at h
    dsimp only at h ⊢
    rw [h _ (by omega), h _ (by omega), h _ (by omega), h _ (by omega)]

/-- An entry is at most the mark. -/
theorem FatLayout.entry_le_mark (L : FatLayout) (f : Nat → Sector) (c : Nat) : L.entry f c ≤ L.mark := by
  unfold entry mark
  cases L.fs_type with
  | unmounted => exact le_rfl
  | FS_FAT12 =>
    have := L.tableByte_lt f (c + c / 2 + 1)
    have := L.tableByte_lt f (c + c / 2)
    dsimp only
    split <;> omega
  | FS_FAT16 =>
    have := L.tableByte_lt f (2 * c + 1)
    have := L.tableByte_lt f (2 * c)
    dsimp only
    omega
  | FS_FAT32 =>
    dsimp only
    omega

/-- **A sector of the table is replaced.** -/
theorem FatLayout.tableByte_update (L : FatLayout) (f : Nat → Sector) (k : Nat) (p : Sector) (i : Nat) :
    L.tableByte (Function.update f (L.fatbase + k) p) i
      = if i / 512 = k then (p (i % 512)).toNat else L.tableByte f i := by
  unfold tableByte
  rw [Function.update_apply]
  by_cases hk : i / 512 = k
  · rw [if_pos (by omega), if_pos hk]
  · rw [if_neg (by omega), if_neg hk]

/-- The table is the same where the window has been moved. -/
theorem Volume.Moved.fat (h : v.Moved v') (hL : v.layout.WellFormed) (hc : v.layout.IsCluster c) :
    v'.fat c = v.fat c := by
  rw [Volume.fat, Volume.fat, h.layout]
  refine FatLayout.entry_congr hc fun i hi => ?_
  have hin := (hL.inTable hi).windowed hL
  rw [FatLayout.tableByte, FatLayout.tableByte, h.view _ hin.1 hin.2.2]

/-! ## Stores into the window -/

/-- **The volume after a store into the table**: only the first table has changed. -/
structure Volume.Stored (v v' : Volume) : Prop where
  layout : v'.layout = v.layout
  last_clust : v'.fs.last_clust = v.fs.last_clust
  free_clust : v'.fs.free_clust = v.fs.free_clust
  disk : v.disk.Same v'.disk
  view : ∀ s, v.layout.fatbase + v.layout.n_fats * v.layout.fsize ≤ s → v'.view s = v.view s
  mirrored : v.Mirrored → v'.Mirrored

theorem Volume.Moved.stored (h : v.Moved v') : v.Stored v' :=
  ⟨h.layout, h.last_clust, h.free_clust, h.disk,
    fun s hs => h.view s ((Nat.le_add_right _ _).trans hs) fun hcopy => Nat.not_lt.mpr hs hcopy.2, h.mirrored⟩

theorem Volume.Stored.trans (h : v.Stored v') (h' : v'.Stored v'') : v.Stored v'' where
  layout := h'.layout.trans h.layout
  last_clust := h'.last_clust.trans h.last_clust
  free_clust := h'.free_clust.trans h.free_clust
  disk := h.disk.trans h'.disk
  view s hs := (h'.view s (h.layout.symm ▸ hs)).trans (h.view s hs)
  mirrored := h'.mirrored ∘ h.mirrored

/-- The window gets another content. -/
def setWin (win : Sector) (v : Volume) : Volume := setDirty { v with fs := { v.fs with win } }

/-- **A store into the window**, which is at a sector of the volume. -/
theorem Volume.Sound.setWin (h : v.Sound) (hs : v.fs.winsect ≠ 0) (win : Sector) :
    (Fat.setWin win v).Sound ∧ (Fat.setWin win v).view = Function.update v.view v.fs.winsect win
      ∧ (v.layout.InTable v.fs.winsect → v.Stored (Fat.setWin win v)) := by
  have hview : (Fat.setWin win v).view = Function.update v.view v.fs.winsect win :=
    Slot.seen_put (c := v.fs.window) (if_neg hs) win true
  refine ⟨⟨h.wellFormed, h.is_ata, h.answers, h.window, fun _ => hs, fun hfalse => absurd hfalse.symm Bool.false_ne_true⟩,
    hview, fun hin => ⟨rfl, rfl, rfl, .refl _, fun s hs => ?_, fun hm htwo s hsin hw => ?_⟩⟩
  · have hend := hin.2.trans_le (Nat.add_le_add_left h.wellFormed.fsize_le v.layout.fatbase)
    rw [hview, Function.update_of_ne (by omega)]
  · exact hm htwo s hsin fun hw' => hw ⟨rfl, hw'.2⟩

/-! ## Reading an entry -/

/-- **The window has been moved to a byte of the table.** -/
structure Volume.AtByte (v : Volume) (i : Nat) (v₁ : Volume) : Prop where
  sound : v₁.Sound
  moved : v.Moved v₁
  sect : v₁.fs.winsect = v.fs.fatbase + i / 512
  win : v₁.fs.win = v.view (v.fs.fatbase + i / 512)

theorem Volume.Sound.moveTable (h : v.Sound) (hi : i < v.layout.tableBytes) :
    ∃ v₁, Fat.moveWindow (dword (v.fs.fatbase + i / 512)) v = .ok (.FR_OK, v₁) ∧ v.AtByte i v₁ := by
  have hwindowed := (h.wellFormed.inTable hi).windowed h.wellFormed
  have hlt : v.fs.fatbase + i / 512 < 2 ^ 32 :=
    Nat.lt_of_lt_of_le hwindowed.2.1 (h.limit_le.trans (by decide))
  rw [dword_of_lt hlt]
  obtain ⟨v₁, hrun, hsound, hmoved, hsect, hwin⟩ := h.moveWindow hwindowed
  exact ⟨v₁, hrun, hsound, hmoved, hsect, hwin⟩

/-- What the window holds, as bytes of the table. -/
theorem Volume.AtByte.tableByte {v₁ : Volume} (hat : v.AtByte i v₁) {j : Nat} (hj : j / 512 = i / 512) :
    (v₁.fs.win (j % 512)).toNat = v.layout.tableByte v.view j := by
  rw [hat.win, FatLayout.tableByte, hj]
  rfl

/-- **An entry of the table is read.** -/
theorem Volume.Sound.getFat (h : v.Sound) (hc : v.layout.IsCluster c) :
    ∃ v', Fat.getFat c v = .ok (v.fat c, v') ∧ v'.Sound ∧ v.Moved v' ∧ v.layout.InTable v'.fs.winsect := by
  have hL := h.wellFormed
  have hrange : ¬ (c < 2 ∨ v.fs.n_fatent ≤ c) := fun hout =>
    hout.elim (Nat.not_lt.mpr hc.1) (Nat.not_le.mpr hc.2)
  have hn : c < v.fs.n_fatent := hc.2
  cases htype : v.fs.fs_type with
  | unmounted => exact absurd htype hL.mounted
  | FS_FAT12 =>
    have hbytes : v.layout.tableBytes = (3 * v.fs.n_fatent + 1) / 2 := by
      rw [FatLayout.tableBytes, show v.layout.fs_type = .FS_FAT12 from htype]
      rfl
    have hlow : c + c / 2 < v.layout.tableBytes := by omega
    have hhigh : c + c / 2 + 1 < v.layout.tableBytes := by omega
    obtain ⟨v₁, hrun₁, hsound₁, hmoved₁, -, hwin₁⟩ := h.moveTable hlow
    obtain ⟨v₂, hrun₂, hsound₂, hmoved₂, hsect₂, hwin₂⟩ := hsound₁.moveTable (hmoved₁.layout.symm ▸ hhigh)
    have hbase : v₁.fs.fatbase = v.fs.fatbase := congrArg FatLayout.fatbase hmoved₁.layout
    have hsector := (hL.inTable hhigh).windowed hL
    have hmask : ∀ x, x &&& 0xFFF = x % 2 ^ 12 := fun x => Nat.and_two_pow_sub_one_eq_mod x 12
    rw [hbase] at hrun₂ hsect₂ hwin₂
    rw [show v₁.view (v.fs.fatbase + (c + c / 2 + 1) / 512) = v.view (v.fs.fatbase + (c + c / 2 + 1) / 512) from
      hmoved₁.view _ hsector.1 hsector.2.2] at hwin₂
    refine ⟨v₂, ?_, hsound₂, hmoved₁.trans hmoved₂, ?_⟩
    · simp only [Fat.getFat, if_neg hrange, htype, hrun₁, hrun₂, kernel_ok_bind, ne_eq, not_true_eq_false, if_false,
        hwin₁, hwin₂, hbase, and_one_ne_zero, shiftLeft_or (byte_lt _), hmask, Nat.shiftRight_eq_div_pow]
      rw [Volume.fat, FatLayout.entry, show v.layout.fs_type = .FS_FAT12 from htype]
      rfl
    · rw [hsect₂]
      exact hL.inTable hhigh
  | FS_FAT16 =>
    have hbytes : v.layout.tableBytes = 2 * v.fs.n_fatent := by
      rw [FatLayout.tableBytes, show v.layout.fs_type = .FS_FAT16 from htype]
      rfl
    have hlow : 2 * c < v.layout.tableBytes := by omega
    obtain ⟨v₁, hrun, hsound, hmoved, hsect, hwin⟩ := h.moveTable hlow
    have hdiv : c / 256 = 2 * c / 512 := by omega
    refine ⟨v₁, ?_, hsound, hmoved, hsect ▸ hL.inTable hlow⟩
    simp only [Fat.getFat, if_neg hrange, htype, hdiv, hrun, kernel_ok_bind, ne_eq, not_true_eq_false, if_false,
      hwin, ldWord_eq]
    rw [Volume.fat, FatLayout.entry, show v.layout.fs_type = .FS_FAT16 from htype]
    simp only [FatLayout.tableByte, show (2 * c + 1) / 512 = 2 * c / 512 by omega,
      show (2 * c + 1) % 512 = c * 2 % 512 + 1 by omega, show 2 * c % 512 = c * 2 % 512 by omega]
    rfl
  | FS_FAT32 =>
    have hbytes : v.layout.tableBytes = 4 * v.fs.n_fatent := by
      rw [FatLayout.tableBytes, show v.layout.fs_type = .FS_FAT32 from htype]
      rfl
    have hlow : 4 * c < v.layout.tableBytes := by omega
    obtain ⟨v₁, hrun, hsound, hmoved, hsect, hwin⟩ := h.moveTable hlow
    have hdiv : c / 128 = 4 * c / 512 := by omega
    have hmask : ∀ x, x &&& 0x0FFFFFFF = x % 2 ^ 28 := fun x => Nat.and_two_pow_sub_one_eq_mod x 28
    refine ⟨v₁, ?_, hsound, hmoved, hsect ▸ hL.inTable hlow⟩
    simp only [Fat.getFat, if_neg hrange, htype, hdiv, hrun, kernel_ok_bind, ne_eq, not_true_eq_false, if_false,
      hwin, ldDword_eq, hmask]
    rw [Volume.fat, FatLayout.entry, show v.layout.fs_type = .FS_FAT32 from htype]
    simp only [FatLayout.tableByte, show (4 * c + 1) / 512 = 4 * c / 512 by omega,
      show (4 * c + 2) / 512 = 4 * c / 512 by omega, show (4 * c + 3) / 512 = 4 * c / 512 by omega,
      show (4 * c + 1) % 512 = c * 4 % 512 + 1 by omega, show (4 * c + 2) % 512 = c * 4 % 512 + 2 by omega,
      show (4 * c + 3) % 512 = c * 4 % 512 + 3 by omega, show 4 * c % 512 = c * 4 % 512 by omega]
    rfl

/-! ## Writing an entry -/

/-- **A store into the window**, at a byte of the table. -/
theorem Volume.Sound.storeTable {v₁ : Volume} (h : v.Sound) (hi : i < v.layout.tableBytes) (hat : v.AtByte i v₁)
    (win : Sector) :
    (Fat.setWin win v₁).Sound ∧ v.Stored (Fat.setWin win v₁) ∧ v.layout.InTable (Fat.setWin win v₁).fs.winsect
      ∧ ∀ j < v.layout.tableBytes, v.layout.tableByte (Fat.setWin win v₁).view j
        = if j / 512 = i / 512 then (win (j % 512)).toNat else v.layout.tableByte v.view j := by
  have hin : v.layout.InTable v₁.fs.winsect := hat.sect ▸ h.wellFormed.inTable hi
  have hne : v₁.fs.winsect ≠ 0 := (hin.windowed h.wellFormed).ne_zero h.wellFormed
  obtain ⟨hsound', hview, hstored⟩ := hat.sound.setWin hne win
  refine ⟨hsound', hat.moved.stored.trans (hstored (hat.moved.layout.symm ▸ hin)), hin, fun j hj => ?_⟩
  rw [hview, hat.sect]
  refine (v.layout.tableByte_update v₁.view (i / 512) win j).trans ?_
  split
  · rfl
  · have hj := (h.wellFormed.inTable hj).windowed h.wellFormed
    rw [FatLayout.tableByte, FatLayout.tableByte, hat.moved.view _ hj.1 hj.2.2]

/-- **A byte of the table is stored to.** -/
theorem Volume.Sound.storeByte {v₁ : Volume} (h : v.Sound) (hi : i < v.layout.tableBytes) (hat : v.AtByte i v₁)
    (b : UInt8) :
    (setDirty (setByte (i % 512) b v₁)).Sound ∧ v.Stored (setDirty (setByte (i % 512) b v₁))
      ∧ v.layout.InTable (setDirty (setByte (i % 512) b v₁)).fs.winsect
      ∧ ∀ j < v.layout.tableBytes, v.layout.tableByte (setDirty (setByte (i % 512) b v₁)).view j
        = if j = i then b.toNat else v.layout.tableByte v.view j := by
  obtain ⟨hsound, hstored, hin, hbyte⟩ := h.storeTable hi hat (Function.update v₁.fs.win (i % 512) b)
  refine ⟨hsound, hstored, hin, fun j hj => (hbyte j hj).trans ?_⟩
  by_cases hdiv : j / 512 = i / 512
  · rw [if_pos hdiv, Function.update_apply]
    by_cases hmod : j % 512 = i % 512
    · rw [if_pos hmod, if_pos (by omega)]
    · rw [if_neg hmod, if_neg fun heq : j = i => hmod (heq ▸ rfl), hat.tableByte hdiv]
  · rw [if_neg hdiv, if_neg fun heq : j = i => hdiv (heq ▸ rfl)]

/-- **What a store of an entry does** to the volume. -/
structure Volume.Put (v v' : Volume) (c val : Nat) : Prop where
  stored : v.Stored v'
  entry : v'.fat c = val % (v.layout.mark + 1)
  others : ∀ c', v.layout.IsCluster c' → c' ≠ c → v'.fat c' = v.fat c'
  inTable : v.layout.InTable v'.fs.winsect

/-- **Entries of 16 bits.** -/
theorem FatLayout.entry_store16 (htype : L.fs_type = .FS_FAT16)
    (hbyte : ∀ j < L.tableBytes, L.tableByte g j
      = if j = 2 * c + 1 then val / 2 ^ 8 % 2 ^ 8 else if j = 2 * c then val % 2 ^ 8 else L.tableByte f j)
    (hc : L.IsCluster c') : L.entry g c' = if c' = c then val % 2 ^ 16 else L.entry f c' := by
  have hlt := hc.2
  rw [tableBytes, htype] at hbyte
  dsimp only at hbyte
  rw [entry, entry, htype]
  dsimp only
  rw [hbyte _ (by omega), hbyte _ (by omega)]
  by_cases heq : c' = c
  · rw [if_pos heq, if_pos (by omega), if_neg (by omega), if_pos (by omega)]
    omega
  · rw [if_neg heq, if_neg (by omega), if_neg (by omega), if_neg (by omega), if_neg (by omega)]

/-- **Entries of 32 bits**, of which the upper four are not used. -/
theorem FatLayout.entry_store32 (htype : L.fs_type = .FS_FAT32)
    (hbyte : ∀ j < L.tableBytes, L.tableByte g j
      = if j = 4 * c + 3 then val / 2 ^ 24 % 2 ^ 8 else if j = 4 * c + 2 then val / 2 ^ 16 % 2 ^ 8
        else if j = 4 * c + 1 then val / 2 ^ 8 % 2 ^ 8 else if j = 4 * c then val % 2 ^ 8 else L.tableByte f j)
    (hc : L.IsCluster c') : L.entry g c' = if c' = c then val % 2 ^ 28 else L.entry f c' := by
  have hlt := hc.2
  rw [tableBytes, htype] at hbyte
  dsimp only at hbyte
  rw [entry, entry, htype]
  dsimp only
  rw [hbyte _ (by omega), hbyte _ (by omega), hbyte _ (by omega), hbyte _ (by omega)]
  by_cases heq : c' = c
  · subst heq
    rw [if_pos rfl, if_pos rfl, if_neg (by omega), if_pos rfl, if_neg (by omega), if_neg (by omega), if_pos rfl,
      if_neg (by omega), if_neg (by omega), if_neg (by omega), if_pos rfl]
    omega
  · simp (disch := omega) only [if_neg]

/-- **Entries of 12 bits**, which share a byte with a neighbour. -/
theorem FatLayout.entry_store12 (htype : L.fs_type = .FS_FAT12)
    (hbyte : ∀ j < L.tableBytes, L.tableByte g j
      = if j = c + c / 2 + 1 then
          (if c % 2 = 1 then val / 16 % 256 else L.tableByte f (c + c / 2 + 1) / 16 * 16 + val / 256 % 16)
        else if j = c + c / 2 then
          (if c % 2 = 1 then val % 16 * 16 + L.tableByte f (c + c / 2) % 16 else val % 256)
        else L.tableByte f j)
    (hc : L.IsCluster c') : L.entry g c' = if c' = c then val % 2 ^ 12 else L.entry f c' := by
  have hlt := hc.2
  rw [tableBytes, htype] at hbyte
  dsimp only at hbyte
  rw [entry, entry, htype]
  dsimp only
  rw [hbyte _ (by omega), hbyte _ (by omega)]
  have hlow := L.tableByte_lt f (c + c / 2)
  have hhigh := L.tableByte_lt f (c + c / 2 + 1)
  by_cases heq : c' = c
  · subst heq
    simp only [if_true, if_neg (show c' + c' / 2 ≠ c' + c' / 2 + 1 by omega)]
    by_cases hodd : c' % 2 = 1
    · rw [if_pos hodd, if_pos hodd, if_pos hodd]
      omega
    · rw [if_neg hodd, if_neg hodd, if_neg hodd]
      omega
  · rw [if_neg heq]
    by_cases hnext : c' = c + 1 ∧ c % 2 = 0
    · -- the next entry begins in the second byte
      obtain ⟨rfl, heven⟩ := hnext
      rw [show c + 1 + (c + 1) / 2 = c + c / 2 + 1 by omega]
      simp (disch := omega) only [if_pos, if_neg, if_true]
      omega
    · by_cases hprev : c = c' + 1 ∧ c % 2 = 1
      · -- the previous one ends in the first byte
        obtain ⟨rfl, hodd⟩ := hprev
        rw [show c' + c' / 2 + 1 = c' + 1 + (c' + 1) / 2 by omega]
        simp (disch := omega) only [if_pos, if_neg, if_true]
        omega
      · simp (disch := omega) only [if_neg]

/-- The table from its entries, where they are known. -/
theorem Volume.put_of_entry (hstored : v.Stored v') (hin : v.layout.InTable v'.fs.winsect) (hc : v.layout.IsCluster c)
    (hentry : ∀ c', v.layout.IsCluster c' →
      v.layout.entry v'.view c' = if c' = c then val % (v.layout.mark + 1) else v.layout.entry v.view c') :
    v.Put v' c val := by
  have hfat : ∀ c', v'.fat c' = v.layout.entry v'.view c' := fun c' => by rw [Volume.fat, hstored.layout]
  refine ⟨hstored, ?_, fun c' hc' hne => ?_, hin⟩
  · rw [hfat, hentry c hc, if_pos rfl]
  · rw [hfat, hentry c' hc', if_neg hne]
    rfl

/-- **An entry of the table is written.** -/
theorem Volume.Sound.putFat (h : v.Sound) (hc : v.layout.IsCluster c) (val : Nat) :
    ∃ v', Fat.putFat c val v = .ok (.FR_OK, v') ∧ v'.Sound ∧ v.Put v' c val := by
  have hL := h.wellFormed
  have hrange : ¬ (c < 2 ∨ v.fs.n_fatent ≤ c) := fun hout =>
    hout.elim (Nat.not_lt.mpr hc.1) (Nat.not_le.mpr hc.2)
  have hn : c < v.fs.n_fatent := hc.2
  cases htype : v.fs.fs_type with
  | unmounted => exact absurd htype hL.mounted
  | FS_FAT12 =>
    have htype' : v.layout.fs_type = .FS_FAT12 := htype
    have hbytes : v.layout.tableBytes = (3 * v.fs.n_fatent + 1) / 2 := by
      rw [FatLayout.tableBytes, htype']
      rfl
    have hlow : c + c / 2 < v.layout.tableBytes := by omega
    have hhigh : c + c / 2 + 1 < v.layout.tableBytes := by omega
    obtain ⟨v₁, hrun₁, hat₁⟩ := h.moveTable hlow
    obtain ⟨hsound₂, hstored₂, -, hbyte₂⟩ :=
      h.storeByte hlow hat₁ (lowByte c val (v₁.fs.win ((c + c / 2) % 512)))
    generalize hv₂ : setDirty (setByte ((c + c / 2) % 512) (lowByte c val (v₁.fs.win ((c + c / 2) % 512))) v₁) = v₂
      at hsound₂ hstored₂ hbyte₂
    have hlayout₂ : v₂.layout = v.layout := hstored₂.layout
    obtain ⟨v₃, hrun₃, hat₃⟩ := hsound₂.moveTable (hlayout₂.symm ▸ hhigh)
    obtain ⟨hsound₄, hstored₄, hin₄, hbyte₄⟩ := hsound₂.storeByte (hlayout₂.symm ▸ hhigh) hat₃
      (highByte c val (v₃.fs.win ((c + c / 2 + 1) % 512)))
    refine ⟨_, ?_, hsound₄, put_of_entry (hstored₂.trans hstored₄) (hlayout₂ ▸ hin₄) hc fun c' hc' => ?_⟩
    · simp only [Fat.putFat, if_neg hrange, htype, hrun₁, kernel_ok_bind, ne_eq, not_true_eq_false, if_false, hv₂,
        hrun₃]
      rfl
    · rw [hlayout₂] at hbyte₄
      rw [v.layout.mark_eq, htype']
      refine FatLayout.entry_store12 htype' (fun j hj => ?_) hc'
      rw [hbyte₄ j hj, highByte_toNat, hat₃.tableByte rfl, hlayout₂, hbyte₂ j hj, hbyte₂ _ hhigh, lowByte_toNat,
        hat₁.tableByte rfl, if_neg (Nat.succ_ne_self _)]
  | FS_FAT16 =>
    have htype' : v.layout.fs_type = .FS_FAT16 := htype
    have hbytes : v.layout.tableBytes = 2 * v.fs.n_fatent := by
      rw [FatLayout.tableBytes, htype']
      rfl
    have hlow : 2 * c < v.layout.tableBytes := by omega
    have hdiv : c / 256 = 2 * c / 512 := by omega
    obtain ⟨v₁, hrun, hat⟩ := h.moveTable hlow
    obtain ⟨hsound, hstored, hin, hbyte⟩ := h.storeTable hlow hat (stWord v₁.fs.win (c * 2 % 512) (val % 2 ^ 16))
    refine ⟨_, ?_, hsound, put_of_entry hstored hin hc fun c' hc' => ?_⟩
    · simp only [Fat.putFat, if_neg hrange, htype, hdiv, hrun, kernel_ok_bind, ne_eq, not_true_eq_false, if_false]
      rfl
    · rw [v.layout.mark_eq, htype']
      refine FatLayout.entry_store16 htype' (fun j hj => ?_) hc'
      rw [hbyte j hj, stWord_apply]
      by_cases hsect : j / 512 = 2 * c / 512
      · rw [if_pos hsect, hat.tableByte hsect]
        simp only [show (j % 512 = c * 2 % 512 + 1) = (j = 2 * c + 1) by grind,
          show (j % 512 = c * 2 % 512) = (j = 2 * c) by grind]
        congr 1
        · omega
        · congr 1
          omega
      · rw [if_neg hsect, if_neg (by omega), if_neg (by omega)]
  | FS_FAT32 =>
    have htype' : v.layout.fs_type = .FS_FAT32 := htype
    have hbytes : v.layout.tableBytes = 4 * v.fs.n_fatent := by
      rw [FatLayout.tableBytes, htype']
      rfl
    have hlow : 4 * c < v.layout.tableBytes := by omega
    have hdiv : c / 128 = 4 * c / 512 := by omega
    obtain ⟨v₁, hrun, hat⟩ := h.moveTable hlow
    let word := val ||| (ldDword v₁.fs.win (c * 4 % 512) &&& 0xF0000000)
    obtain ⟨hsound, hstored, hin, hbyte⟩ := h.storeTable hlow hat (stDword v₁.fs.win (c * 4 % 512) word)
    refine ⟨_, ?_, hsound, put_of_entry hstored hin hc fun c' hc' => ?_⟩
    · simp only [Fat.putFat, if_neg hrange, htype, hdiv, hrun, kernel_ok_bind, ne_eq, not_true_eq_false, if_false]
      rfl
    · rw [v.layout.mark_eq, htype', ← or_and_mod (ldDword v₁.fs.win (c * 4 % 512)) val]
      refine FatLayout.entry_store32 htype' (fun j hj => ?_) hc'
      rw [hbyte j hj, stDword_apply]
      by_cases hsect : j / 512 = 4 * c / 512
      · rw [if_pos hsect, hat.tableByte hsect]
        simp only [show (j % 512 = c * 4 % 512 + 3) = (j = 4 * c + 3) by grind,
          show (j % 512 = c * 4 % 512 + 2) = (j = 4 * c + 2) by grind,
          show (j % 512 = c * 4 % 512 + 1) = (j = 4 * c + 1) by grind,
          show (j % 512 = c * 4 % 512) = (j = 4 * c) by grind]
        rfl
      · rw [if_neg hsect, if_neg (by omega), if_neg (by omega), if_neg (by omega), if_neg (by omega)]

/-! ## An entry that has been put -/

/-- **What is put into an entry is got from it**, cut to its bits, and what is got from the others is as before. -/
theorem getFat_putFat (h : v.Sound) (hc : v.layout.IsCluster c) (val : Nat) :
    ∃ v', putFat c val v = .ok (.FR_OK, v') ∧ ∀ d, v.layout.IsCluster d → ∃ x u u', getFat d v = .ok (x, u)
      ∧ getFat d v' = .ok (if d = c then val % (v.layout.mark + 1) else x, u') := by
  obtain ⟨v', hrun, hsound, hput⟩ := h.putFat hc val
  refine ⟨v', hrun, fun d hd => ?_⟩
  obtain ⟨u, hget, -⟩ := h.getFat hd
  obtain ⟨u', hget', -⟩ := hsound.getFat (hput.stored.layout.symm ▸ hd)
  refine ⟨v.fat d, u, u', hget, ?_⟩
  rw [hget']
  by_cases heq : d = c
  · rw [if_pos heq, heq, hput.entry]
  · rw [if_neg heq, hput.others d hd heq]

/-! ## A small volume -/

/-- **A volume with four clusters**, behind two equal tables and a sector of directory entries; but for the tables there
are only zeros on its disk. -/
def sampleVolume (table : Sector) : Volume where
  fs :=
    { fs_type := .FS_FAT12
      csize := 1
      n_fats := 2
      n_rootdir := 16
      n_fatent := 6
      fsize := 1
      fatbase := 1
      dirbase := 3
      database := 4
      fsi_sector := 0
      id := 1
      wflag := false
      fsi_flag := false
      last_clust := 0
      free_clust := 0xFFFFFFFF
      winsect := 0
      win := zeroSector }
  disk := ⟨true, 8, fun _ => true, fun s => if s = 1 ∨ s = 2 then table else zeroSector⟩

theorem sampleVolume_sound (table : Sector) : (sampleVolume table).Sound where
  wellFormed :=
    ⟨(fun h => by cases h), ⟨0, Nat.zero_le 7, rfl⟩, .inr rfl, Nat.zero_lt_one, show 3 ≤ 4 by decide, show 2 < 6 by decide,
      show (3 * 6 + 1) / 2 ≤ 512 * 1 by decide, show 6 ≤ 0xFFF by decide, (fun h => by cases h)⟩
  is_ata := rfl
  answers s hs := ⟨hs, lt_trans hs (show 8 < 2 ^ 28 by decide), rfl⟩
  window := .inl rfl
  dirty h := absurd h Bool.false_ne_true
  coherent _ _ hk := by cases hk

/-- **The volume on which nothing is stored.** -/
def blankVolume : Volume := sampleVolume zeroSector

theorem blankVolume_fat (c : Nat) : blankVolume.fat c = 0 := by
  have hbyte : ∀ i, blankVolume.layout.tableByte blankVolume.view i = 0 := fun i => by
    show ((if _ then zeroSector else zeroSector) _).toNat = 0
    rw [ite_self]
    rfl
  show (let wc := blankVolume.layout.tableByte blankVolume.view (c + c / 2 + 1) * 2 ^ 8
      + blankVolume.layout.tableByte blankVolume.view (c + c / 2)
    if c % 2 = 1 then wc / 2 ^ 4 else wc % 2 ^ 12) = 0
  simp only [hbyte]
  split <;> rfl

/-- The mark of a last cluster, in an entry of 12 bits. -/
theorem getFat_putFat_blank : ∃ v' u, putFat 3 0x0FFFFFFF blankVolume = .ok (.FR_OK, v') ∧ getFat 3 v' = .ok (0xFFF, u) := by
  have hc : blankVolume.layout.IsCluster 3 := ⟨by decide, show 3 < 6 by decide⟩
  obtain ⟨v', hrun, hget⟩ := getFat_putFat (sampleVolume_sound zeroSector) hc 0x0FFFFFFF
  obtain ⟨x, u, u', -, hget'⟩ := hget 3 hc
  exact ⟨v', u', hrun, hget'⟩

end KaushOS.Fat
