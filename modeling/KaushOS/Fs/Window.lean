import KaushOS.Drivers.DiskIo
import KaushOS.Io.KosFs
import KaushOS.Library.WriteBack
import Mathlib.Tactic.Linarith

/-! # The window of a volume (`kern/fs/ff.c`)

The file system keeps one sector of a volume in the window of its `FATFS`, and writes it back when it
needs another one; a sector of the allocation table is then written to all copies of the table.

* **`FATFS`**, **`Volume`** — the file system object, with the disk that it is on.
* **`moveWindow`**, **`sync`** — the functions that change the window.
* **`Volume.view`** — the sectors of the volume, as they are seen through the window.
* **`Volume.Sound`** — the invariant; **`Volume.Moved`** is what a change of the window does.
* **`Volume.Mirrored`** — the copies of the table are equal, except for what is in the window. -/

namespace KaushOS.Fat

open WriteBack

/-! ## State -/

/-- The value of a `DWORD`. -/
def dword (x : Nat) : Nat := x % 2 ^ 32

theorem dword_of_lt {x : Nat} (h : x < 2 ^ 32) : dword x = x := Nat.mod_eq_of_lt h

/-- **The sub-types of volumes**; `unmounted` is 0. -/
inductive FsType
  | unmounted
  | FS_FAT12
  | FS_FAT16
  | FS_FAT32
  deriving DecidableEq, Repr

/-- **The members of `FATFS` that only mounting changes**: what is where on the volume, in sectors. -/
structure FatLayout where
  fs_type : FsType
  csize : Nat
  n_fats : Nat
  n_rootdir : Nat
  n_fatent : Nat
  fsize : Nat
  fatbase : Nat
  dirbase : Nat
  database : Nat
  fsi_sector : Nat
  id : Nat
  deriving DecidableEq, Repr

/-- **The file system object `FATFS`.** -/
structure FATFS extends FatLayout where
  wflag : Bool
  fsi_flag : Bool
  last_clust : Nat
  free_clust : Nat
  winsect : Nat
  win : Sector

/-- **A volume**: its file system object and its disk. -/
structure Volume where
  fs : FATFS
  disk : Disk

/-- The layout of the volume. -/
def Volume.layout (v : Volume) : FatLayout := v.fs.toFatLayout

/-! ## Words -/

/-- `LD_WORD(ptr)`. -/
def ldWord (p : Sector) (i : Nat) : Nat := (p (i + 1)).toNat <<< 8 ||| (p i).toNat

/-- `LD_DWORD(ptr)`. -/
def ldDword (p : Sector) (i : Nat) : Nat :=
  (p (i + 3)).toNat <<< 24 ||| (p (i + 2)).toNat <<< 16 ||| (p (i + 1)).toNat <<< 8 ||| (p i).toNat

/-- `ST_WORD(ptr, val)`. -/
def stWord (p : Sector) (i val : Nat) : Sector :=
  Function.update (Function.update p i (UInt8.ofNat val)) (i + 1) (UInt8.ofNat ((val % 2 ^ 16) >>> 8))

/-- `ST_DWORD(ptr, val)`. -/
def stDword (p : Sector) (i val : Nat) : Sector :=
  Function.update
    (Function.update
      (Function.update (Function.update p i (UInt8.ofNat val)) (i + 1) (UInt8.ofNat ((val % 2 ^ 16) >>> 8)))
      (i + 2) (UInt8.ofNat (val >>> 16)))
    (i + 3) (UInt8.ofNat (val >>> 24))

/-! ## Moving the window -/

/-- The loop that writes a sector of the table to the copies of the table. -/
def reflectLoop (win : Sector) (fsize : Nat) : Nat → Nat → Disk → Kernel Disk
  | 0, _, d => .ok d
  | nf + 1, wsect, d => do
    let (_, d) ← diskWrite d [win] (dword (wsect + fsize))
    reflectLoop win fsize nf (dword (wsect + fsize)) d

/-- **The part of `move_window` that writes back a dirty window.** -/
def writeBack (v : Volume) : Kernel (FRESULT × Volume) := do
  if v.fs.wflag = false then return (.FR_OK, v)
  else
    let (r, disk) ← diskWrite v.disk [v.fs.win] v.fs.winsect
    if r ≠ .RES_OK then return (.FR_DISK_ERR, { v with disk })
    else if v.fs.winsect < dword (v.fs.fatbase + v.fs.fsize) then
      let disk ← reflectLoop v.fs.win v.fs.fsize (v.fs.n_fats - 1) v.fs.winsect disk
      return (.FR_OK, { fs := { v.fs with wflag := false }, disk })
    else return (.FR_OK, { fs := { v.fs with wflag := false }, disk })

/-- **`move_window(fs, sector)`.** -/
def moveWindow (sector : Nat) (v : Volume) : Kernel (FRESULT × Volume) := do
  if v.fs.winsect = sector then return (.FR_OK, v)
  else
    let (res, v) ← writeBack v
    if res ≠ .FR_OK then return (res, v)
    else if sector = 0 then return (.FR_OK, v)
    else
      let (r, sectors) ← diskRead v.disk sector 1
      if r ≠ .RES_OK then return (.FR_DISK_ERR, v)
      else return (.FR_OK, { v with fs := { v.fs with winsect := sector, win := sectors.headD v.fs.win } })

/-- `mem_set(fs->win, 0, 512)`. -/
def zeroSector : Sector := fun _ => 0

/-- The sector that `sync` writes for `FSInfo`. -/
def fsInfoSector (fs : FATFS) : Sector :=
  let win := stWord zeroSector 510 0xAA55
  let win := stDword win 0 0x41615252
  let win := stDword win 484 0x61417272
  let win := stDword win 488 fs.free_clust
  stDword win 492 fs.last_clust

/-- **`sync(fs)`.** -/
def sync (v : Volume) : Kernel (FRESULT × Volume) := do
  let (res, v) ← moveWindow 0 v
  if res ≠ .FR_OK then return (res, v)
  else if v.fs.fs_type = .FS_FAT32 ∧ v.fs.fsi_flag = true then
    let win := fsInfoSector v.fs
    let (_, disk) ← diskWrite v.disk [win] v.fs.fsi_sector
    -- `disk_ioctl(drv, CTRL_SYNC, 0)` has nothing to do
    return (.FR_OK, { fs := { v.fs with winsect := 0, win, fsi_flag := false }, disk })
  else return (.FR_OK, v)

/-! ## Layouts -/

/-- The end of the volume. -/
def FatLayout.limit (L : FatLayout) : Nat := L.database + (L.n_fatent - 2) * L.csize

/-- The sectors of the first table. -/
def FatLayout.InTable (L : FatLayout) (s : Nat) : Prop := L.fatbase ≤ s ∧ s < L.fatbase + L.fsize

/-- The sectors of the copies of the table. -/
def FatLayout.InCopies (L : FatLayout) (s : Nat) : Prop :=
  L.fatbase + L.fsize ≤ s ∧ s < L.fatbase + L.n_fats * L.fsize

/-- **The sectors that the window is moved to**: those of the first table, and those behind the tables. -/
def FatLayout.Windowed (L : FatLayout) (s : Nat) : Prop := L.fatbase ≤ s ∧ s < L.limit ∧ ¬ L.InCopies s

/-- The bytes that the entries of a table take. -/
def FatLayout.tableBytes (L : FatLayout) : Nat :=
  match L.fs_type with
  | .unmounted => 0
  | .FS_FAT12 => (3 * L.n_fatent + 1) / 2
  | .FS_FAT16 => 2 * L.n_fatent
  | .FS_FAT32 => 4 * L.n_fatent

/-- The largest value of an entry, which is also the mark of a last cluster. -/
def FatLayout.mark (L : FatLayout) : Nat :=
  match L.fs_type with
  | .unmounted => 0
  | .FS_FAT12 => 0xFFF
  | .FS_FAT16 => 0xFFFF
  | .FS_FAT32 => 0x0FFFFFFF

/-- **A layout that is good**: tables and clusters are one behind the other, a table has room for its
entries, no cluster has the number of a mark, and the sector of `FSInfo` is in front of the tables. -/
structure FatLayout.WellFormed (L : FatLayout) : Prop where
  mounted : L.fs_type ≠ .unmounted
  csize : ∃ k ≤ 7, L.csize = 2 ^ k
  n_fats : L.n_fats = 1 ∨ L.n_fats = 2
  reserved : 0 < L.fatbase
  tables : L.fatbase + L.n_fats * L.fsize ≤ L.database
  clusters : 2 < L.n_fatent
  room : L.tableBytes ≤ 512 * L.fsize
  marks : L.n_fatent ≤ L.mark
  info : L.fs_type = .FS_FAT32 → L.fsi_sector < L.fatbase

variable {L : FatLayout} {v v' v'' : Volume} {s sector : Nat}

theorem FatLayout.WellFormed.csize_pos (h : L.WellFormed) : 0 < L.csize := by
  obtain ⟨k, -, hk⟩ := h.csize
  rw [hk]
  exact Nat.two_pow_pos k

theorem FatLayout.WellFormed.fsize_le (h : L.WellFormed) : L.fsize ≤ L.n_fats * L.fsize :=
  Nat.le_mul_of_pos_left _ (by have := h.n_fats; omega)

/-- The first table is in front of the clusters. -/
theorem FatLayout.WellFormed.table_le (h : L.WellFormed) : L.fatbase + L.fsize ≤ L.database :=
  (Nat.add_le_add_left h.fsize_le _).trans h.tables

theorem FatLayout.database_le_limit (L : FatLayout) : L.database ≤ L.limit := Nat.le_add_right _ _

/-- The first table is not one of its copies. -/
theorem FatLayout.InTable.windowed (h : L.InTable s) (hL : L.WellFormed) : L.Windowed s :=
  ⟨h.1, h.2.trans_le (hL.table_le.trans L.database_le_limit), fun hcopy => absurd h.2 (Nat.not_lt.mpr hcopy.1)⟩

/-- Behind the tables there is no copy. -/
theorem FatLayout.windowed_of_database (hL : L.WellFormed) (hs : L.database ≤ s) (hlimit : s < L.limit) :
    L.Windowed s := by
  have htables := hL.tables
  refine ⟨by omega, hlimit, fun hcopy => ?_⟩
  have := hcopy.2
  omega

/-- The window is never moved to the first sector of the disk. -/
theorem FatLayout.Windowed.ne_zero (h : L.Windowed s) (hL : L.WellFormed) : s ≠ 0 := by
  have := h.1
  have := hL.reserved
  omega

/-! ## What is seen -/

/-- The window as a cache; the sector 0 stands for none. -/
def FATFS.window (fs : FATFS) : Slot Nat Sector :=
  ⟨if fs.winsect = 0 then none else some fs.winsect, fs.win, fs.wflag⟩

/-- **The sectors of the volume**, as they are seen through the window. -/
def Volume.view (v : Volume) : Nat → Sector := v.fs.window.seen v.disk.sector

/-- **The copies of the table are equal** to the table, but for a sector that has yet to be written. -/
def Volume.Mirrored (v : Volume) : Prop :=
  v.fs.n_fats = 2 → ∀ s, v.layout.InTable s → ¬ (v.fs.wflag = true ∧ v.fs.winsect = s) →
    v.disk.sector (s + v.fs.fsize) = v.disk.sector s

/-- **The invariant of a mounted volume.** -/
structure Volume.Sound (v : Volume) : Prop where
  wellFormed : v.layout.WellFormed
  is_ata : v.disk.is_ata = true
  answers : ∀ s < v.layout.limit, v.disk.Answers s
  window : v.fs.winsect = 0 ∨ v.layout.Windowed v.fs.winsect
  dirty : v.fs.wflag = true → v.fs.winsect ≠ 0
  coherent : v.fs.window.Coherent v.disk.sector

/-- **The same volume, seen through another window.** -/
structure Volume.Moved (v v' : Volume) : Prop where
  layout : v'.layout = v.layout
  last_clust : v'.fs.last_clust = v.fs.last_clust
  free_clust : v'.fs.free_clust = v.fs.free_clust
  disk : v.disk.Same v'.disk
  view : ∀ s, v.layout.fatbase ≤ s → ¬ v.layout.InCopies s → v'.view s = v.view s
  mirrored : v.Mirrored → v'.Mirrored

theorem Volume.Moved.refl (v : Volume) : v.Moved v :=
  ⟨rfl, rfl, rfl, .refl _, fun _ _ _ => rfl, id⟩

theorem Volume.Moved.trans (h : v.Moved v') (h' : v'.Moved v'') : v.Moved v'' where
  layout := h'.layout.trans h.layout
  last_clust := h'.last_clust.trans h.last_clust
  free_clust := h'.free_clust.trans h.free_clust
  disk := h.disk.trans h'.disk
  view s hs hcopy := (h'.view s (h.layout.symm ▸ hs) (h.layout.symm ▸ hcopy)).trans (h.view s hs hcopy)
  mirrored := h'.mirrored ∘ h.mirrored

/-- What the window holds is seen. -/
theorem Volume.view_winsect (hs : v.fs.winsect ≠ 0) : v.view v.fs.winsect = v.fs.win :=
  Slot.seen_key (c := v.fs.window) (if_neg hs)

/-- Everywhere else the disk is seen. -/
theorem Volume.view_of_ne (hs : s ≠ v.fs.winsect) : v.view s = v.disk.sector s := by
  refine Slot.seen_of_ne (c := v.fs.window) fun hkey => ?_
  unfold FATFS.window at hkey
  dsimp only at hkey
  split at hkey
  · cases hkey
  · exact hs (Option.some.inj hkey).symm

/-- Through a clean window the disk is seen. -/
theorem Volume.Sound.view_clean (h : v.Sound) (hclean : v.fs.wflag = false) : v.view = v.disk.sector :=
  Slot.seen_clean h.coherent hclean

/-- All sectors have numbers of 28 bits. -/
theorem Volume.Sound.limit_le (h : v.Sound) : v.layout.limit ≤ 2 ^ 28 := by
  by_contra hlimit
  have hlba := (h.answers (2 ^ 28) (by omega)).lba
  omega

/-! ## Writing back -/

/-- **A sector is written to all copies.** -/
theorem reflectLoop_ok (win : Sector) {fsize : Nat} {d : Disk} {nf wsect : Nat} (hata : d.is_ata = true)
    (hanswers : ∀ k < nf, d.Answers (wsect + (k + 1) * fsize)) :
    ∃ d', reflectLoop win fsize nf wsect d = .ok d' ∧ d.Same d'
      ∧ (∀ k < nf, d'.sector (wsect + (k + 1) * fsize) = win)
      ∧ ∀ s, (∀ k < nf, s ≠ wsect + (k + 1) * fsize) → d'.sector s = d.sector s := by
  induction nf generalizing wsect d with
  | zero => exact ⟨d, rfl, .refl d, fun k hk => absurd hk k.not_lt_zero, fun _ _ => rfl⟩
  | succ nf ih =>
    have hfirst : d.Answers (wsect + fsize) := by simpa using hanswers 0 (Nat.succ_pos nf)
    have hword : dword (wsect + fsize) = wsect + fsize := dword_of_lt (by have := hfirst.lba; omega)
    have hstep : ∀ k, wsect + fsize + (k + 1) * fsize = wsect + (k + 1 + 1) * fsize := fun k => by
      rw [Nat.succ_mul (k + 1)]
      omega
    let d₁ : Disk := { d with sector := storeSectors d.sector (wsect + fsize) [win] }
    have hsame : d.Same d₁ := ⟨rfl, rfl, rfl⟩
    have hrest : ∀ k < nf, d₁.Answers (wsect + fsize + (k + 1) * fsize) := fun k hk => by
      rw [hstep]
      exact (hanswers (k + 1) (Nat.succ_lt_succ hk)).same hsame
    obtain ⟨d', hrun, hsame', hwritten, hother⟩ := ih (d := d₁) hata hrest
    have hwrite : diskWrite d [win] (wsect + fsize) = .ok (.RES_OK, d₁) :=
      diskWrite_of_answers hata fun i hi => by
        obtain rfl : i = 0 := by simpa using hi
        exact hfirst
    have hd₁ : d₁.sector = Function.update d.sector (wsect + fsize) win := storeSectors_one ..
    refine ⟨d', ?_, hsame.trans hsame', fun k hk => ?_, fun s hs => ?_⟩
    · rw [reflectLoop, hword, hwrite]
      exact hrun
    · cases k with
      | zero =>
        rw [Nat.zero_add, Nat.one_mul]
        -- a later copy is the same sector only where the tables are empty
        by_cases hlater : ∃ k < nf, wsect + fsize = wsect + fsize + (k + 1) * fsize
        · obtain ⟨k, hk, heq⟩ := hlater
          rw [heq]
          exact hwritten k hk
        · rw [hother _ fun k hk heq => hlater ⟨k, hk, heq⟩, hd₁, Function.update_self]
      | succ k =>
        rw [← hstep]
        exact hwritten k (Nat.lt_of_succ_lt_succ hk)
    · rw [hother s fun k hk => hstep k ▸ hs (k + 1) (Nat.succ_lt_succ hk), hd₁, Function.update_of_ne]
      simpa using hs 0 (Nat.succ_pos nf)

/-- The copies of a sector of the table. -/
theorem FatLayout.InTable.copy (h : L.InTable s) {k : Nat} (hk : k < L.n_fats - 1) :
    L.InCopies (s + (k + 1) * L.fsize) := by
  have hle : (k + 2) * L.fsize ≤ L.n_fats * L.fsize := Nat.mul_le_mul_right _ (by omega)
  rw [Nat.add_mul, Nat.two_mul] at hle
  rw [Nat.succ_mul]
  exact ⟨by have := h.1; omega, by have := h.2; omega⟩

/-- The copy of a sector of the table, where there is one. -/
theorem FatLayout.InTable.copy_first (h : L.InTable s) (htwo : L.n_fats = 2) : L.InCopies (s + L.fsize) := by
  have hcopy := h.copy (k := 0) (by rw [htwo]; decide)
  simpa using hcopy

/-- **A window that is dirty is written to the disk**, and to all copies of the table if it is in the table. -/
theorem Volume.Sound.writeBack_dirty (h : v.Sound) (hdirty : v.fs.wflag = true) :
    ∃ disk, writeBack v = .ok (.FR_OK, { fs := { v.fs with wflag := false }, disk }) ∧ v.disk.Same disk
      ∧ disk.sector v.fs.winsect = v.fs.win
      ∧ (v.layout.InTable v.fs.winsect → v.fs.n_fats = 2 → disk.sector (v.fs.winsect + v.fs.fsize) = v.fs.win)
      ∧ ∀ s, s ≠ v.fs.winsect → (v.layout.InTable v.fs.winsect → v.fs.n_fats = 2 → s ≠ v.fs.winsect + v.fs.fsize) →
        disk.sector s = v.disk.sector s := by
  have hL := h.wellFormed
  have hwindow : v.layout.Windowed v.fs.winsect := h.window.resolve_left (h.dirty hdirty)
  have hlimit := h.limit_le
  have htable := hL.table_le.trans v.layout.database_le_limit
  have hword : dword (v.fs.fatbase + v.fs.fsize) = v.fs.fatbase + v.fs.fsize :=
    dword_of_lt (Nat.lt_of_le_of_lt (htable.trans hlimit) (by decide))
  let d₁ : Disk := { v.disk with sector := storeSectors v.disk.sector v.fs.winsect [v.fs.win] }
  have hwrite : diskWrite v.disk [v.fs.win] v.fs.winsect = .ok (.RES_OK, d₁) :=
    diskWrite_of_answers h.is_ata fun i hi => by
      obtain rfl : i = 0 := by simpa using hi
      exact h.answers _ hwindow.2.1
  have hd₁ : d₁.sector = Function.update v.disk.sector v.fs.winsect v.fs.win := storeSectors_one ..
  have hsame : v.disk.Same d₁ := ⟨rfl, rfl, rfl⟩
  by_cases hin : v.fs.winsect < v.fs.fatbase + v.fs.fsize
  · have hin' : v.layout.InTable v.fs.winsect := ⟨hwindow.1, hin⟩
    have hcopies : ∀ k < v.fs.n_fats - 1, d₁.Answers (v.fs.winsect + (k + 1) * v.fs.fsize) := fun k hk => by
      refine (h.answers _ ?_).same hsame
      exact (hin'.copy hk).2.trans_le (hL.tables.trans v.layout.database_le_limit)
    obtain ⟨disk, hloop, hsame', hwritten, hother⟩ := reflectLoop_ok v.fs.win (d := d₁) h.is_ata hcopies
    refine ⟨disk, ?_, hsame.trans hsame', ?_, fun _ htwo => ?_, fun s hs hcopy => ?_⟩
    · simp only [writeBack, hdirty, Bool.true_eq_false, if_false, hwrite, kernel_ok_bind, ne_eq, not_true_eq_false,
        hword, if_pos hin, hloop]
      rfl
    · rw [hother, hd₁, Function.update_self]
      intro k _ heq
      have hle : v.fs.fsize ≤ (k + 1) * v.fs.fsize := Nat.le_mul_of_pos_left _ k.succ_pos
      have hbase : v.fs.fatbase ≤ v.fs.winsect := hin'.1
      omega
    · have := hwritten 0 (by rw [htwo]; decide)
      simpa using this
    · rw [hother, hd₁, Function.update_of_ne hs]
      intro k hk
      have htwo : v.fs.n_fats = 2 := by
        have : v.fs.n_fats = 1 ∨ v.fs.n_fats = 2 := hL.n_fats
        omega
      obtain rfl : k = 0 := by omega
      simpa using hcopy hin' htwo
  · refine ⟨d₁, ?_, hsame, ?_, fun hin' => absurd hin'.2 hin, fun s hs _ => ?_⟩
    · simp only [writeBack, hdirty, Bool.true_eq_false, if_false, hwrite, kernel_ok_bind, ne_eq, not_true_eq_false,
        hword, if_neg hin]
      rfl
    · rw [hd₁, Function.update_self]
    · rw [hd₁, Function.update_of_ne hs]

/-- **Writing back** leaves a clean window in front of the same volume. -/
theorem Volume.Sound.writeBack (h : v.Sound) :
    ∃ disk, Fat.writeBack v = .ok (.FR_OK, { fs := { v.fs with wflag := false }, disk })
      ∧ Volume.Sound { fs := { v.fs with wflag := false }, disk }
      ∧ v.Moved { fs := { v.fs with wflag := false }, disk } := by
  cases hdirty : v.fs.wflag with
  | false =>
    have heq : ({ fs := { v.fs with wflag := false }, disk := v.disk } : Volume) = v := by
      rw [← hdirty]
    refine ⟨v.disk, ?_, heq.symm ▸ h, heq.symm ▸ .refl v⟩
    rw [heq]
    simp only [Fat.writeBack, hdirty, if_true]
    rfl
  | true =>
    obtain ⟨disk, hrun, hsame, hwritten, hcopy, hother⟩ := h.writeBack_dirty hdirty
    have hwindow : v.layout.Windowed v.fs.winsect := h.window.resolve_left (h.dirty hdirty)
    let v₁ : Volume := { fs := { v.fs with wflag := false }, disk }
    have hcoherent : v₁.fs.window.Coherent disk.sector := fun _ k hkey => by
      have hkey : (if v.fs.winsect = 0 then none else some v.fs.winsect) = some k := hkey
      rw [if_neg (h.dirty hdirty)] at hkey
      cases hkey
      exact hwritten
    have hsound : v₁.Sound :=
      ⟨h.wellFormed, hsame.1.trans h.is_ata, fun s hs => (h.answers s hs).same hsame, h.window,
        fun hfalse => absurd hfalse Bool.false_ne_true, hcoherent⟩
    refine ⟨disk, hrun, hsound, rfl, rfl, rfl, hsame, fun s _ hs => ?_, fun hmirrored htwo s hs _ => ?_⟩
    · rw [hsound.view_clean rfl]
      by_cases heq : s = v.fs.winsect
      · rw [heq, view_winsect (h.dirty hdirty)]
        exact hwritten
      · rw [view_of_ne heq]
        refine hother s heq fun hin htwo heq' => hs ?_
        rw [heq']
        exact hin.copy_first htwo
    · have hcopies : v.layout.InCopies (s + v.fs.fsize) := FatLayout.InTable.copy_first hs htwo
      have hnot : s ≠ v.fs.winsect + v.fs.fsize := by
        have : s < v.fs.fatbase + v.fs.fsize := hs.2
        have : v.fs.fatbase ≤ v.fs.winsect := hwindow.1
        omega
      by_cases heq : s = v.fs.winsect
      · show disk.sector (s + v.fs.fsize) = disk.sector s
        rw [heq, hwritten]
        exact hcopy (heq ▸ hs) htwo
      · show disk.sector (s + v.fs.fsize) = disk.sector s
        have hne : s + v.fs.fsize ≠ v.fs.winsect := fun heq' => hwindow.2.2 (heq' ▸ hcopies)
        rw [hother s heq fun _ _ => hnot, hother _ hne fun _ _ heq' => heq (by omega)]
        exact hmirrored htwo s hs fun hw => heq hw.2.symm

/-! ## Moving -/

/-- **The window is moved** to another sector of the volume, and holds what is seen there. -/
theorem Volume.Sound.moveWindow (h : v.Sound) (hsector : v.layout.Windowed sector) :
    ∃ v', Fat.moveWindow sector v = .ok (.FR_OK, v') ∧ v'.Sound ∧ v.Moved v' ∧ v'.fs.winsect = sector
      ∧ v'.fs.win = v.view sector := by
  have hzero : sector ≠ 0 := hsector.ne_zero h.wellFormed
  by_cases heq : v.fs.winsect = sector
  · refine ⟨v, ?_, h, .refl v, heq, ?_⟩
    · simp only [Fat.moveWindow, heq, if_true]
      rfl
    · rw [← heq, view_winsect (heq ▸ hzero)]
  · obtain ⟨disk, hwrite, hsound, hmoved⟩ := h.writeBack
    have hread : diskRead disk sector 1 = .ok (.RES_OK, [disk.sector sector]) :=
      diskRead_of_answers hsound.is_ata fun i hi => by
        obtain rfl : i = 0 := by omega
        exact hsound.answers _ hsector.2.1
    let v₁ : Volume := { fs := { v.fs with wflag := false }, disk }
    let v₂ : Volume := { fs := { v.fs with wflag := false, winsect := sector, win := disk.sector sector }, disk }
    have hkey : v₂.fs.window = ⟨some sector, disk.sector sector, false⟩ := by
      show (⟨if sector = 0 then none else some sector, _, _⟩ : Slot Nat Sector) = _
      rw [if_neg hzero]
    have hview : v₂.view = disk.sector := by
      rw [Volume.view, hkey]
      exact Slot.seen_load sector false
    have hview₁ : v₁.view = disk.sector := hsound.view_clean rfl
    have hsound₂ : v₂.Sound :=
      ⟨h.wellFormed, hsound.is_ata, hsound.answers, .inr hsector, fun hfalse => absurd hfalse Bool.false_ne_true,
        fun _ k hk => by
          rw [hkey] at hk
          cases hk
          exact (congrArg Slot.held hkey).symm⟩
    refine ⟨v₂, ?_, hsound₂, hmoved.trans ⟨rfl, rfl, rfl, .refl _, fun s _ _ => ?_, fun hm htwo s hs _ => ?_⟩,
      rfl, ?_⟩
    · simp only [Fat.moveWindow, if_neg heq, hwrite, kernel_ok_bind, ne_eq, not_true_eq_false, if_false, if_neg hzero,
        hread]
      rfl
    · rw [hview, ← hview₁]
    · exact hm htwo s hs fun hw => absurd hw.1 Bool.false_ne_true
    · show disk.sector sector = _
      rw [← hview₁]
      exact hmoved.view sector hsector.1 hsector.2.2

/-- **The window is flushed**: the disk holds what is seen. -/
theorem Volume.Sound.moveWindow_zero (h : v.Sound) :
    ∃ v', Fat.moveWindow 0 v = .ok (.FR_OK, v') ∧ v'.Sound ∧ v.Moved v' ∧ v'.fs.wflag = false
      ∧ v'.fs.winsect = v.fs.winsect := by
  by_cases heq : v.fs.winsect = 0
  · have hclean : v.fs.wflag = false := by
      cases hdirty : v.fs.wflag with
      | false => rfl
      | true => exact absurd heq (h.dirty hdirty)
    refine ⟨v, ?_, h, .refl v, hclean, rfl⟩
    simp only [Fat.moveWindow, heq, if_true]
    rfl
  · obtain ⟨disk, hwrite, hsound, hmoved⟩ := h.writeBack
    refine ⟨_, ?_, hsound, hmoved, rfl, rfl⟩
    simp only [Fat.moveWindow, if_neg heq, hwrite, kernel_ok_bind, ne_eq, not_true_eq_false, if_false, if_true]
    rfl

/-- **What `sync` does**: nothing is left to be written back. -/
theorem Volume.Sound.sync (h : v.Sound) :
    ∃ v', Fat.sync v = .ok (.FR_OK, v') ∧ v'.Sound ∧ v.Moved v' ∧ v'.fs.wflag = false
      ∧ (v'.fs.winsect = v.fs.winsect ∨ v'.fs.winsect = 0) := by
  obtain ⟨v₁, hrun, hsound, hmoved, hclean, hsect⟩ := h.moveWindow_zero
  by_cases hinfo : v₁.fs.fs_type = .FS_FAT32 ∧ v₁.fs.fsi_flag = true
  · have hreserved : v₁.fs.fsi_sector < v₁.fs.fatbase := hsound.wellFormed.info hinfo.1
    have htable : v₁.fs.fatbase + v₁.fs.fsize ≤ v₁.layout.limit :=
      hsound.wellFormed.table_le.trans v₁.layout.database_le_limit
    let disk : Disk := { v₁.disk with sector := storeSectors v₁.disk.sector v₁.fs.fsi_sector [fsInfoSector v₁.fs] }
    have hwrite : diskWrite v₁.disk [fsInfoSector v₁.fs] v₁.fs.fsi_sector = .ok (.RES_OK, disk) :=
      diskWrite_of_answers hsound.is_ata fun i hi => by
        obtain rfl : i = 0 := by simpa using hi
        exact hsound.answers _ (by omega)
    let v' : Volume := { fs := { v₁.fs with winsect := 0, win := fsInfoSector v₁.fs, fsi_flag := false }, disk }
    have hsector : ∀ s, v₁.fs.fatbase ≤ s → disk.sector s = v₁.disk.sector s := fun s hs => by
      show storeSectors _ _ _ s = _
      rw [storeSectors_one, Function.update_of_ne (by omega)]
    have hview : ∀ s, v₁.fs.fatbase ≤ s → v'.view s = v₁.view s := fun s hs => by
      rw [hsound.view_clean hclean, ← hsector s hs]
      refine Volume.view_of_ne (v := v') ?_
      have := hsound.wellFormed.reserved
      have hbase : v₁.layout.fatbase = v₁.fs.fatbase := rfl
      show s ≠ 0
      omega
    have hsame : v₁.disk.Same disk := ⟨rfl, rfl, rfl⟩
    refine ⟨v', ?_, ⟨hsound.wellFormed, hsound.is_ata, fun s hs => (hsound.answers s hs).same hsame, .inl rfl,
      fun hdirty => ?_, fun _ k hk => ?_⟩, hmoved.trans ⟨rfl, rfl, rfl, hsame, fun s hs _ => hview s hs,
      fun hm htwo s hs _ => ?_⟩, hclean, .inr rfl⟩
    · simp only [Fat.sync, hrun, kernel_ok_bind, ne_eq, not_true_eq_false, if_false, if_pos hinfo, hwrite]
      rfl
    · exact absurd (hclean.symm.trans hdirty) Bool.false_ne_true
    · cases hk
    · show disk.sector (s + v₁.fs.fsize) = disk.sector s
      rw [hsector s hs.1, hsector _ (Nat.le_add_right_of_le hs.1)]
      exact hm htwo s hs fun hw => absurd (hclean.symm.trans hw.1) Bool.false_ne_true
  · refine ⟨v₁, ?_, hsound, hmoved, hclean, .inl hsect⟩
    simp only [Fat.sync, hrun, kernel_ok_bind, ne_eq, not_true_eq_false, if_false, if_neg hinfo]
    rfl

end KaushOS.Fat
