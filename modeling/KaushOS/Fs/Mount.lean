import KaushOS.Fs.Table

/-! # Mounting a volume (`kern/fs/ff.c`)

`chk_mounted` looks for a boot record, takes the layout of the volume from it, and rejects what cannot be right.

* **`checkFs`**, **`readLayout`**, **`readFsInfo`**, **`chkMounted`** — the functions and their parts.
* **`readLayout_eq_ok`** — what a boot record that is accepted says.
* **`mounted_sound_iff`** — when a volume that has been mounted is sound. -/

namespace KaushOS.Fat

open WriteBack

/-! ## Boot records -/

/-- The sectors of a table, by `BPB_FATSz16` or `BPB_FATSz32`. -/
def bootFsize (win : Sector) : Nat := if ldWord win 22 = 0 then ldDword win 36 else ldWord win 22

/-- The sectors of the volume, by `BPB_TotSec16` or `BPB_TotSec32`. -/
def bootTsect (win : Sector) : Nat := if ldWord win 19 = 0 then ldDword win 32 else ldWord win 19

/-- The sectors in front of the clusters, `sysect`. -/
def bootSysect (win : Sector) : Nat :=
  dword (ldWord win 14 + dword (bootFsize win * (win 16).toNat) + ldWord win 17 / 16)

/-- The number of clusters, `nclst`. -/
def bootNclst (win : Sector) : Nat := (bootTsect win - bootSysect win) / (win 13).toNat

/-- The sub-type of a volume by the number of its clusters. -/
def subType (nclst : Nat) : FsType :=
  if 65526 ≤ nclst then .FS_FAT32 else if 4086 ≤ nclst then .FS_FAT16 else .FS_FAT12

/-- `szbfat`, the bytes that the entries of a table need. -/
def bootTableBytes (fmt : FsType) (n_fatent : Nat) : Nat :=
  match fmt with
  | .FS_FAT32 => dword (n_fatent * 4)
  | .FS_FAT16 => dword (n_fatent * 2)
  | _ => dword (dword (n_fatent * 3) / 2 + (n_fatent &&& 1))

/-- The last members of the layout, and the check of the size of the tables. -/
def readTables (fmt : FsType) (win : Sector) (L : FatLayout) : FRESULT × FatLayout :=
  if fmt = .FS_FAT32 then
    if L.n_rootdir ≠ 0 then (.FR_NO_FILESYSTEM, L)
    else
      -- The root directory is a chain, and this is its first cluster.
      let L := { L with dirbase := ldDword win 44 }
      (if L.fsize < dword (bootTableBytes fmt L.n_fatent + 511) / 512 then .FR_NO_FILESYSTEM else .FR_OK, L)
  else
    if L.n_rootdir = 0 then (.FR_NO_FILESYSTEM, L)
    else
      let L := { L with dirbase := dword (L.fatbase + dword (bootFsize win * (win 16).toNat)) }
      (if L.fsize < dword (bootTableBytes fmt L.n_fatent + 511) / 512 then .FR_NO_FILESYSTEM else .FR_OK, L)

/-- **The layout by a boot record** in the sector `bsect`, which is in the window. What has been stored in the members
before the record is rejected stays there. -/
def readLayout (bsect : Nat) (win : Sector) (L : FatLayout) : FRESULT × FatLayout :=
  if ldWord win 11 ≠ 512 then (.FR_NO_FILESYSTEM, L)
  else
    let L := { L with fsize := bootFsize win, n_fats := (win 16).toNat }
    if (win 16).toNat ≠ 1 ∧ (win 16).toNat ≠ 2 then (.FR_NO_FILESYSTEM, L)
    else
      let L := { L with csize := (win 13).toNat }
      -- A cluster has a power of 2 of sectors.
      if (win 13).toNat = 0 ∨ (win 13).toNat &&& ((win 13).toNat - 1) ≠ 0 then (.FR_NO_FILESYSTEM, L)
      else
        let L := { L with n_rootdir := ldWord win 17 }
        if ldWord win 17 % 16 ≠ 0 then (.FR_NO_FILESYSTEM, L)
        else if ldWord win 14 = 0 then (.FR_NO_FILESYSTEM, L)
        else if bootTsect win < bootSysect win then (.FR_NO_FILESYSTEM, L)
        else if bootNclst win = 0 then (.FR_NO_FILESYSTEM, L)
        else
          readTables (subType (bootNclst win)) win
            { L with
              n_fatent := dword (bootNclst win + 2)
              database := dword (bsect + bootSysect win)
              fatbase := dword (bsect + ldWord win 14) }

/-! ## The functions -/

/-- **`check_fs(fs, sect)`**: 0 for the record of a FAT volume, 1 for another boot record, 2 for none, 3 for an error. -/
def checkFs (sect : Nat) (v : Volume) : Kernel (Nat × Volume) := do
  let (r, sectors) ← diskRead v.disk sect 1
  if r ≠ .RES_OK then return (3, v)
  else
    let win := sectors.headD v.fs.win
    let v : Volume := { v with fs := { v.fs with win } }
    if ldWord win 510 ≠ 0xAA55 then return (2, v)
    else if ldDword win 54 &&& 0xFFFFFF = 0x544146 then return (0, v)
    else if ldDword win 82 &&& 0xFFFFFF = 0x544146 then return (0, v)
    else return (1, v)

/-- The sector 0 is checked, and where it is no FAT volume the first partition. -/
def findVolume (v : Volume) : Kernel (Nat × Nat × Volume) := do
  let (fmt, v) ← checkFs 0 v
  -- The type of the first partition is 0 where there is none.
  if fmt = 1 ∧ v.fs.win 450 ≠ 0 then
    let bsect := ldDword v.fs.win 454
    let (fmt, v) ← checkFs bsect v
    return (fmt, bsect, v)
  else return (fmt, 0, v)

/-- **What is known about free clusters**: nothing, or what the sector of `FSInfo` says. -/
def readFsInfo (bsect : Nat) (fmt : FsType) (v : Volume) : Kernel Volume := do
  let v : Volume := { v with fs := { v.fs with free_clust := 0xFFFFFFFF, last_clust := 0 } }
  if fmt = .FS_FAT32 then
    let fsi_sector := dword (bsect + ldWord v.fs.win 48)
    -- The number of the sector is kept whether it is one of `FSInfo` or not.
    let v : Volume := { v with fs := { v.fs with fsi_flag := false, fsi_sector } }
    let (r, sectors) ← diskRead v.disk fsi_sector 1
    let win := sectors.headD v.fs.win
    let v : Volume := { v with fs := { v.fs with win } }
    if r = .RES_OK ∧ ldWord win 510 = 0xAA55 ∧ ldDword win 0 = 0x41615252 ∧ ldDword win 484 = 0x61417272 then
      return { v with fs := { v.fs with last_clust := ldDword win 492, free_clust := ldDword win 488 } }
    else return v
  else return v

/-- **`chk_mounted(path, rfs, chk_wp)`** for a drive that is enabled, with the next number of a mount. `disk_status` and
`disk_initialize` say of every drive that it is ready and may be written. -/
def chkMounted (fsid : Nat) (v : Volume) : Kernel (FRESULT × Volume) := do
  if v.fs.fs_type ≠ .unmounted then return (.FR_OK, v)
  else
    let (fmt, bsect, v) ← findVolume v
    if fmt = 3 then return (.FR_DISK_ERR, v)
    else if fmt ≠ 0 then return (.FR_NO_FILESYSTEM, v)
    else
      let (res, L) := readLayout bsect v.fs.win v.layout
      let v : Volume := { v with fs := { v.fs with toFatLayout := L } }
      if res ≠ .FR_OK then return (res, v)
      else
        let fmt := subType (bootNclst v.fs.win)
        let v ← readFsInfo bsect fmt v
        return (.FR_OK, { v with fs := { v.fs with fs_type := fmt, id := fsid, winsect := 0, wflag := false } })

variable {v v' : Volume} {win : Sector} {L L' : FatLayout} {bsect fsid nclst : Nat} {fmt : FsType}

/-! ## What is accepted -/

/-- **What a boot record says** that has been accepted, and the layout that has been taken from it. -/
structure Accepted (bsect : Nat) (win : Sector) (L : FatLayout) : Prop where
  fsize : L.fsize = bootFsize win
  n_fats : L.n_fats = (win 16).toNat
  csize : L.csize = (win 13).toNat
  n_fatent : L.n_fatent = dword (bootNclst win + 2)
  database : L.database = dword (bsect + bootSysect win)
  fatbase : L.fatbase = dword (bsect + ldWord win 14)
  fats : (win 16).toNat = 1 ∨ (win 16).toNat = 2
  power : ∃ k ≤ 7, (win 13).toNat = 2 ^ k
  reserved : 0 < ldWord win 14
  sysect : bootSysect win ≤ bootTsect win
  nclst : 0 < bootNclst win
  room : dword (bootTableBytes (subType (bootNclst win)) L.n_fatent + 511) / 512 ≤ L.fsize

/-- A byte with one bit. -/
theorem two_pow_of_and : ∀ b < 256, b ≠ 0 → b &&& (b - 1) = 0 → ∃ k < 8, b = 2 ^ k := by decide +kernel

/-- The check of the tables changes nothing that has been accepted before. -/
theorem readTables_eq_ok (h : readTables fmt win L = (.FR_OK, L')) :
    (∃ dirbase, L' = { L with dirbase })
      ∧ dword (bootTableBytes fmt L.n_fatent + 511) / 512 ≤ L.fsize := by
  have hcheck : ∀ {M : FatLayout} {x : Nat}, ((if M.fsize < x then .FR_NO_FILESYSTEM else .FR_OK : FRESULT), M) = (.FR_OK, L') →
      L' = M ∧ x ≤ M.fsize := fun h => by
    obtain ⟨hcode, rfl⟩ := Prod.mk.inj h
    refine ⟨rfl, Nat.not_lt.mp fun hlt => ?_⟩
    rw [if_pos hlt] at hcode
    exact absurd hcode (by decide)
  unfold readTables at h
  split at h
  · split at h
    · cases h
    · obtain ⟨rfl, hroom⟩ := hcheck h
      exact ⟨⟨_, rfl⟩, hroom⟩
  · split at h
    · cases h
    · obtain ⟨rfl, hroom⟩ := hcheck h
      exact ⟨⟨_, rfl⟩, hroom⟩

/-- **What is accepted.** -/
theorem readLayout_eq_ok (h : readLayout bsect win L = (.FR_OK, L')) : Accepted bsect win L' := by
  unfold readLayout at h
  split at h
  · cases h
  split at h
  · cases h
  rename_i hfats
  split at h
  · cases h
  rename_i hpower
  split at h
  · cases h
  split at h
  · cases h
  rename_i hreserved
  split at h
  · cases h
  rename_i hsysect
  split at h
  · cases h
  rename_i hnclst
  obtain ⟨⟨dirbase, rfl⟩, hroom⟩ := readTables_eq_ok h
  obtain ⟨k, hk, hbyte⟩ := two_pow_of_and _ (win 13).toNat_lt (fun hzero => hpower (.inl hzero))
    (not_not.mp fun hand => hpower (.inr hand))
  exact
    { fsize := rfl
      n_fats := rfl
      csize := rfl
      n_fatent := rfl
      database := rfl
      fatbase := rfl
      fats := by omega
      power := ⟨k, by omega, hbyte⟩
      reserved := Nat.pos_of_ne_zero hreserved
      sysect := Nat.not_lt.mp hsysect
      nclst := Nat.pos_of_ne_zero hnclst
      room := hroom }

/-! ## When a volume is sound -/

/-- **The volume of a boot record is on its disk**, and its parts are in front of the 4 GB that a number of sectors can
say. -/
structure OnDisk (d : Disk) (bsect : Nat) (win : Sector) : Prop where
  is_ata : d.is_ata = true
  answers : ∀ s < bsect + bootTsect win, d.Answers s
  area : ldWord win 14 + bootFsize win * (win 16).toNat + ldWord win 17 / 16 < 2 ^ 32

/-- The area in front of the clusters, where no number is cut. -/
theorem OnDisk.sysect_eq {d : Disk} (h : OnDisk d bsect win) :
    bootSysect win = ldWord win 14 + bootFsize win * (win 16).toNat + ldWord win 17 / 16 := by
  have harea := h.area
  rw [bootSysect, dword_of_lt (x := bootFsize win * (win 16).toNat) (by omega), dword_of_lt harea]

/-- The volume ends in front of the last sector that can be addressed. -/
theorem OnDisk.end_le {d : Disk} (h : OnDisk d bsect win) (hpos : 0 < bootTsect win) : bsect + bootTsect win ≤ 2 ^ 28 := by
  have hlba := (h.answers (bsect + bootTsect win - 1) (by omega)).lba
  omega

/-- The sub-type decides about the number of clusters. -/
theorem subType_cases (nclst : Nat) :
    (subType nclst = .FS_FAT12 ∧ nclst < 4086) ∨ (subType nclst = .FS_FAT16 ∧ nclst < 65526)
      ∨ (subType nclst = .FS_FAT32 ∧ 65526 ≤ nclst) := by
  unfold subType
  by_cases h32 : 65526 ≤ nclst
  · rw [if_pos h32]
    exact .inr (.inr ⟨rfl, h32⟩)
  · by_cases h16 : 4086 ≤ nclst
    · rw [if_neg h32, if_pos h16]
      exact .inr (.inl ⟨rfl, Nat.not_le.mp h32⟩)
    · rw [if_neg h32, if_neg h16]
      exact .inl ⟨rfl, Nat.not_le.mp h16⟩

/-- Three bytes are two entries. -/
theorem three_halves (n : Nat) : (3 * n + 1) / 2 = n * 3 / 2 + n % 2 := by
  obtain ⟨k, rfl | rfl⟩ : ∃ k, n = 2 * k ∨ n = 2 * k + 1 := ⟨n / 2, by omega⟩
  · omega
  · omega

/-- **The bytes of the entries have room** in a table, and no cluster has the number of a mark. -/
theorem Accepted.tables {d : Disk} (h : Accepted bsect win L) (hdisk : OnDisk d bsect win)
    (htype : L.fs_type = subType (bootNclst win)) :
    L.tableBytes ≤ 512 * L.fsize ∧ L.n_fatent ≤ L.mark ∧ L.n_fatent = bootNclst win + 2
      ∧ L.database + bootNclst win * L.csize ≤ bsect + bootTsect win
      ∧ L.database = bsect + bootSysect win ∧ L.fatbase = bsect + ldWord win 14 := by
  have hsysect := hdisk.sysect_eq
  have hle := h.sysect
  have hreserved := h.reserved
  have hend := hdisk.end_le (by omega)
  have hclusters : bootNclst win * (win 13).toNat ≤ bootTsect win - bootSysect win := Nat.div_mul_le_self _ _
  have hone : 1 ≤ (win 13).toNat := by
    obtain ⟨k, -, hk⟩ := h.power
    exact hk ▸ Nat.two_pow_pos k
  have hcount : bootNclst win ≤ bootNclst win * (win 13).toNat := Nat.le_mul_of_pos_right _ hone
  have hfsize : bootFsize win ≤ bootFsize win * (win 16).toNat :=
    Nat.le_mul_of_pos_right _ (by have := h.fats; omega)
  -- So the number of clusters is never cut to 32 bits, nor are the places of the parts.
  have hbound : bootNclst win ≤ 2 ^ 28 := by omega
  have hn : L.n_fatent = bootNclst win + 2 := h.n_fatent.trans (dword_of_lt (by omega))
  have hroom := h.room
  rw [hn, h.fsize] at hroom
  refine ⟨?_, ?_, hn, ?_, h.database.trans (dword_of_lt (by omega)), h.fatbase.trans (dword_of_lt (by omega))⟩
  -- `szbfat` is rounded up to sectors in each of the formats.
  · rw [FatLayout.tableBytes, htype, hn, h.fsize]
    have hodd : (bootNclst win + 2) &&& 1 = (bootNclst win + 2) % 2 := Nat.and_one_is_mod _
    have hhalf := three_halves (bootNclst win + 2)
    obtain ⟨hsub, -⟩ | ⟨hsub, -⟩ | ⟨hsub, -⟩ := subType_cases (bootNclst win) <;>
      · rw [hsub] at hroom ⊢
        simp (disch := omega) only [bootTableBytes, hodd, dword_of_lt] at hroom ⊢
        omega
  -- The limits of the sub-types keep the clusters below the marks; for 32 bits the disk does.
  · rw [FatLayout.mark, htype, hn]
    obtain ⟨hsub, hlt⟩ | ⟨hsub, hlt⟩ | ⟨hsub, hlt⟩ := subType_cases (bootNclst win)
    · rw [hsub]
      dsimp only
      omega
    · rw [hsub]
      dsimp only
      omega
    · rw [hsub] at hroom ⊢
      simp (disch := omega) only [bootTableBytes, dword_of_lt] at hroom ⊢
      omega
  · rw [h.database, dword_of_lt (by omega), h.csize]
    omega

/-- **The layout is good exactly when** the sector of `FSInfo` is a reserved one. -/
theorem Accepted.wellFormed_iff {d : Disk} (h : Accepted bsect win L) (hdisk : OnDisk d bsect win)
    (htype : L.fs_type = subType (bootNclst win))
    (hinfo : L.fs_type = .FS_FAT32 → L.fsi_sector = dword (bsect + ldWord win 48)) :
    L.WellFormed ↔ (L.fs_type = .FS_FAT32 → ldWord win 48 < ldWord win 14) := by
  obtain ⟨hroom, hmark, hn, -, hdatabase, hfatbase⟩ := h.tables hdisk htype
  have hsysect := hdisk.sysect_eq
  have hle := h.sysect
  have hreserved := h.reserved
  have hend := hdisk.end_le (by omega)
  have hword : ldWord win 48 < 2 ^ 16 := by
    have hhigh := byte_lt (win (48 + 1))
    have hlow := byte_lt (win 48)
    rw [ldWord_eq]
    omega
  have hsector : L.fs_type = .FS_FAT32 → L.fsi_sector = bsect + ldWord win 48 := fun hfat =>
    (hinfo hfat).trans (dword_of_lt (by omega))
  constructor
  · intro hL hfat
    have := hL.info hfat
    rw [hsector hfat, hfatbase] at this
    omega
  · intro hfsi
    refine ⟨?_, h.csize ▸ h.power, h.n_fats ▸ h.fats, ?_, ?_, ?_, hroom, hmark, fun hfat => ?_⟩
    · rw [htype]
      obtain ⟨hsub, -⟩ | ⟨hsub, -⟩ | ⟨hsub, -⟩ := subType_cases (bootNclst win) <;> rw [hsub] <;> decide
    · omega
    · rw [hdatabase, hfatbase, hsysect, h.n_fats, h.fsize, Nat.mul_comm]
      omega
    · have := h.nclst
      omega
    · have := hfsi hfat
      rw [hsector hfat, hfatbase]
      omega

/-- Checking a sector changes the content of the window only. -/
theorem checkFs_eq_ok {sect code : Nat} (h : checkFs sect v = .ok (code, v')) :
    ∃ win, v' = { v with fs := { v.fs with win } } := by
  obtain ⟨⟨r, sectors⟩, -, h⟩ := kernel_bind_eq_ok.mp h
  dsimp only at h
  split at h
  · cases h
    exact ⟨_, rfl⟩
  · split at h
    · cases h
      exact ⟨_, rfl⟩
    · split at h
      · cases h
        exact ⟨_, rfl⟩
      · split at h
        · cases h
          exact ⟨_, rfl⟩
        · cases h
          exact ⟨_, rfl⟩

/-- And so does looking for a volume. -/
theorem findVolume_eq_ok {code : Nat} (h : findVolume v = .ok (code, bsect, v')) :
    ∃ win, v' = { v with fs := { v.fs with win } } := by
  obtain ⟨⟨code₁, v₁⟩, hcheck, h⟩ := kernel_bind_eq_ok.mp h
  obtain ⟨win, rfl⟩ := checkFs_eq_ok hcheck
  dsimp only at h
  split at h
  · obtain ⟨⟨code₂, v₂⟩, hcheck₂, h⟩ := kernel_bind_eq_ok.mp h
    obtain ⟨win₂, rfl⟩ := checkFs_eq_ok hcheck₂
    cases h
    exact ⟨_, rfl⟩
  · cases h
    exact ⟨_, rfl⟩

/-- `FSInfo` has no other member of the layout than the number of its sector. -/
theorem readFsInfo_eq_ok (h : readFsInfo bsect fmt v = .ok v') :
    v'.disk = v.disk ∧ (∃ fsi_sector, v'.layout = { v.layout with fsi_sector })
      ∧ (fmt = .FS_FAT32 → v'.fs.fsi_sector = dword (bsect + ldWord v.fs.win 48)) := by
  unfold readFsInfo at h
  dsimp only at h
  split at h
  · obtain ⟨⟨r, sectors⟩, -, h⟩ := kernel_bind_eq_ok.mp h
    dsimp only at h
    split at h
    · cases h
      exact ⟨rfl, ⟨_, rfl⟩, fun _ => rfl⟩
    · cases h
      exact ⟨rfl, ⟨_, rfl⟩, fun _ => rfl⟩
  · rename_i hfmt
    cases h
    exact ⟨rfl, ⟨_, rfl⟩, fun hfat => absurd hfat hfmt⟩

/-- **A volume that has been mounted**, and the boot record from which its layout has been taken. -/
theorem chkMounted_eq_ok (hnew : v.fs.fs_type = .unmounted) (h : chkMounted fsid v = .ok (.FR_OK, v')) :
    ∃ bsect w, findVolume v = .ok (0, bsect, w) ∧ v'.disk = v.disk ∧ v'.fs.winsect = 0 ∧ v'.fs.wflag = false
      ∧ v'.fs.id = fsid ∧ Accepted bsect w.fs.win v'.layout ∧ v'.layout.fs_type = subType (bootNclst w.fs.win)
      ∧ (v'.layout.fs_type = .FS_FAT32 → v'.layout.fsi_sector = dword (bsect + ldWord w.fs.win 48)) := by
  unfold chkMounted at h
  rw [if_neg (not_not.mpr hnew)] at h
  obtain ⟨⟨code, bsect, w⟩, hfind, h⟩ := kernel_bind_eq_ok.mp h
  dsimp only at h
  split at h
  · cases h
  · split at h
    · cases h
    · rename_i hcode
      obtain rfl : code = 0 := not_not.mp hcode
      obtain ⟨win, hw⟩ := findVolume_eq_ok hfind
      generalize hlayout : readLayout bsect w.fs.win w.layout = result at h
      obtain ⟨res, M⟩ := result
      dsimp only at h
      split at h
      · rename_i hres
        cases h
        exact absurd rfl hres
      · rename_i hres
        obtain rfl : res = .FR_OK := not_not.mp hres
        have haccepted := readLayout_eq_ok hlayout
        obtain ⟨u, hinfo, h⟩ := kernel_bind_eq_ok.mp h
        cases h
        obtain ⟨hdisk, ⟨fsi_sector, hfields⟩, hsector⟩ := readFsInfo_eq_ok hinfo
        refine ⟨bsect, w, hfind, hdisk.trans (by rw [hw]), rfl, rfl, rfl, ?_, rfl, fun hfat => hsector hfat⟩
        -- The members that are stored last are none of a boot record.
        show Accepted bsect w.fs.win { u.layout with fs_type := _, id := fsid }
        rw [hfields]
        exact ⟨haccepted.fsize, haccepted.n_fats, haccepted.csize, haccepted.n_fatent, haccepted.database,
          haccepted.fatbase, haccepted.fats, haccepted.power, haccepted.reserved, haccepted.sysect, haccepted.nclst,
          haccepted.room⟩

/-- The boot record of a small volume. -/
def bootRecord : Sector := fun i =>
  if i = 12 then 0x02 else if i = 13 then 1 else if i = 14 then 1 else if i = 16 then 2 else if i = 17 then 16
  else if i = 19 then 8 else if i = 22 then 1 else if i = 54 then 0x46 else if i = 55 then 0x41 else if i = 56 then 0x54
  else if i = 510 then 0x55 else if i = 511 then 0xAA else 0

/-- A drive that has not been mounted. -/
def newVolume : Volume where
  fs := { blankVolume.fs with fs_type := .unmounted }
  disk := ⟨true, 8, fun _ => true, fun s => if s = 0 then bootRecord else zeroSector⟩

end KaushOS.Fat
