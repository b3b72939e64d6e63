import KaushOS.Fs.Chains

/-! # Files (`kern/fs/ff.c`)

A file object has a position and a buffer for one sector of the file. What fills whole sectors is
transferred directly.

* **`FIL`** — the file object, and **`openEntry`**, what `f_open` puts into it.
* **`fRead`**, **`fWrite`** — the functions, by the chunks that one round of their loops transfers.
* **`fLseek`**, **`fTruncate`**, **`fSync`**, **`fClose`** — the other functions on an open file. -/

namespace KaushOS.Fat

/-! ## File objects -/

/-- **The file object `FIL`.** The flags are the bits of `flag`; `fs` is whether the pointer to the file
system object is not null, and `dir_ptr` an offset in the window. -/
structure FIL where
  fs : Bool
  id : Nat
  FA_READ : Bool
  FA_WRITE : Bool
  FA__WRITTEN : Bool
  FA__DIRTY : Bool
  FA__ERROR : Bool
  fptr : Nat
  fsize : Nat
  org_clust : Nat
  curr_clust : Nat
  dsect : Nat
  dir_sect : Nat
  dir_ptr : Nat
  buf : Sector

/-- **`validate(fs, id)`**; `disk_status` says of every drive that it is ready. -/
def validate (fp : FIL) (v : Volume) : FRESULT :=
  if fp.fs = false ∨ v.fs.fs_type = .unmounted ∨ v.fs.id ≠ fp.id then .FR_INVALID_OBJECT else .FR_OK

/-- **`clust2sect(fs, clst)`.** -/
def clust2sect (fs : FatLayout) (clst : Nat) : Nat :=
  let clst := dword (clst + (2 ^ 32 - 2))
  if dword (fs.n_fatent + (2 ^ 32 - 2)) ≤ clst then 0 else dword (clst * fs.csize + fs.database)

/-- The sector offset in the cluster, `csect`. -/
def FIL.csect (fp : FIL) (v : Volume) : Nat := fp.fptr / 512 &&& (v.fs.csize - 1)

/-- `fp->dsect - sect`, by which the place of the buffer among sectors is found. -/
def FIL.bufferPlace (fp : FIL) (sect : Nat) : Nat := dword (fp.dsect + (2 ^ 32 - sect))

/-- A dirty buffer is written back. -/
def flushBuffer (fp : FIL) (v : Volume) : Kernel (FRESULT × FIL × Volume) := do
  if fp.FA__DIRTY = false then return (.FR_OK, fp, v)
  else
    let (r, disk) ← diskWrite v.disk [fp.buf] fp.dsect
    if r ≠ .RES_OK then return (.FR_DISK_ERR, fp, { v with disk })
    else return (.FR_OK, { fp with FA__DIRTY := false }, { v with disk })

/-- The number of sectors of a direct transfer is clipped at the cluster boundary. -/
def clipCount (csize csect cc : Nat) : Nat := if csize < csect + cc then csize - csect else cc

/-! ## Bytes and sectors -/

/-- The bytes of a sector. -/
def sectorBytes (s : Sector) : List UInt8 := (List.range 512).map s

/-- The sector number `j` of the bytes of a caller. -/
def bufferSector (bytes : List UInt8) (j : Nat) : Sector := fun i => bytes.getD (512 * j + i) 0

/-! ## `f_open` -/

/-- `LD_CLUST(dir)`. -/
def ldClust (p : Sector) (dir : Nat) : Nat := ldWord p (dir + 20) <<< 16 ||| ldWord p (dir + 26)

/-- **The file object that `f_open` fills in** for an entry at the offset `dir` of the window; the flags are those of
`mode`. The current cluster and the content of the buffer are left as they have been. -/
def openEntry (FA_READ FA_WRITE FA__WRITTEN : Bool) (dir : Nat) (fp : FIL) (v : Volume) : FIL :=
  { fp with
    dir_sect := v.fs.winsect
    dir_ptr := dir
    FA_READ, FA_WRITE, FA__WRITTEN
    FA__DIRTY := false
    FA__ERROR := false
    org_clust := ldClust v.fs.win dir
    fsize := ldDword v.fs.win (dir + 28)
    fptr := 0
    dsect := 0
    fs := true
    id := v.fs.id }

/-! ## `f_read` -/

/-- The cluster that `f_read` goes to at a cluster boundary. -/
def followCluster (fp : FIL) (v : Volume) : Kernel (Nat × Volume) :=
  if fp.fptr = 0 then .ok (fp.org_clust, v) else getFat fp.curr_clust v

/-- At a cluster boundary `f_read` updates the current cluster. -/
def readCluster (fp : FIL) (v : Volume) : Kernel (FRESULT × FIL × Volume) := do
  if fp.csect v ≠ 0 then return (.FR_OK, fp, v)
  else
    let (clst, v) ← followCluster fp v
    if clst ≤ 1 then return (.FR_INT_ERR, fp, v)
    else if clst = 0xFFFFFFFF then return (.FR_DISK_ERR, fp, v)
    else return (.FR_OK, { fp with curr_clust := clst }, v)

/-- Whole sectors are read directly; a dirty buffer replaces the one that it is to be. -/
def readDirect (sect cc : Nat) (fp : FIL) (v : Volume) : Kernel (FRESULT × List UInt8) := do
  let (r, sectors) ← diskRead v.disk sect cc
  if r ≠ .RES_OK then return (.FR_DISK_ERR, [])
  else if fp.FA__DIRTY = true ∧ fp.bufferPlace sect < cc then
    return (.FR_OK, (sectors.set (fp.bufferPlace sect) fp.buf).flatMap sectorBytes)
  else return (.FR_OK, sectors.flatMap sectorBytes)

/-- The buffer is filled with the sector `sect` by `f_read` and `f_lseek`. -/
def fillBuffer (sect : Nat) (fp : FIL) (v : Volume) : Kernel (FRESULT × FIL) := do
  if fp.dsect = sect then return (.FR_OK, fp)
  else
    let (r, sectors) ← diskRead v.disk sect 1
    if r ≠ .RES_OK then return (.FR_DISK_ERR, fp)
    else return (.FR_OK, { fp with buf := sectors.headD fp.buf, dsect := sect })

/-- The bytes from the file pointer on that are taken from the buffer. -/
def pickPartial (btr : Nat) (fp : FIL) : List UInt8 :=
  (List.range (min (512 - fp.fptr % 512) btr)).map fun i => fp.buf (fp.fptr % 512 + i)

/-- The buffer is used by `f_read` for the sector `sect`. -/
def readBuffered (btr sect : Nat) (fp : FIL) (v : Volume) : Kernel (FRESULT × List UInt8 × FIL × Volume) := do
  let (res, fp, v) ← flushBuffer fp v
  if res ≠ .FR_OK then return (res, [], fp, v)
  else
    let (res, fp) ← fillBuffer sect fp v
    if res ≠ .FR_OK then return (res, [], fp, v) else return (.FR_OK, pickPartial btr fp, fp, v)

/-- A round of `f_read` in the sector `csect` of the current cluster. -/
def readSector (btr csect : Nat) (fp : FIL) (v : Volume) : Kernel (FRESULT × List UInt8 × FIL × Volume) :=
  let sect := clust2sect v.layout fp.curr_clust
  if sect = 0 then .ok (.FR_INT_ERR, [], fp, v)
  else if btr / 512 ≠ 0 then do
    let (res, bytes) ← readDirect (dword (sect + csect)) (clipCount v.fs.csize csect (btr / 512)) fp v
    return (res, bytes, fp, v)
  else readBuffered btr (dword (sect + csect)) fp v

/-- **One round of the loop of `f_read`**: the bytes that are transferred, or an error. -/
def readChunk (btr : Nat) (fp : FIL) (v : Volume) : Kernel (FRESULT × List UInt8 × FIL × Volume) :=
  if fp.fptr % 512 ≠ 0 then .ok (.FR_OK, pickPartial btr fp, fp, v)
  else do
    let csect := fp.csect v
    let (res, fp, v) ← readCluster fp v
    if res ≠ .FR_OK then return (res, [], fp, v) else readSector btr csect fp v

/-- The loop of `f_read`; `ABORT` sets the error flag. -/
def readLoop : Nat → Nat → FIL → Volume → Kernel (FRESULT × List UInt8 × FIL × Volume)
  | 0, _, _, _ => .error .endlessLoop
  | fuel + 1, btr, fp, v =>
    if btr = 0 then .ok (.FR_OK, [], fp, v)
    else do
      let (res, bytes, fp, v) ← readChunk btr fp v
      if res ≠ .FR_OK then return (res, [], { fp with FA__ERROR := true }, v)
      else
        let (res, rest, fp, v) ←
          readLoop fuel (btr - bytes.length) { fp with fptr := dword (fp.fptr + bytes.length) } v
        return (res, bytes ++ rest, fp, v)

/-- **`f_read(fp, buff, btr, br)`**: the result and the bytes that have been read into the buffer. -/
def fRead (btr : Nat) (fp : FIL) (v : Volume) : Kernel (FRESULT × List UInt8 × FIL × Volume) :=
  let res := validate fp v
  if res ≠ .FR_OK then .ok (res, [], fp, v)
  else if fp.FA__ERROR = true then .ok (.FR_INT_ERR, [], fp, v)
  else if fp.FA_READ = false then .ok (.FR_DENIED, [], fp, v)
  else
    let remain := dword (fp.fsize + (2 ^ 32 - fp.fptr))
    readLoop (min btr remain + 1) (min btr remain) fp v

/-! ## `f_write` -/

/-- **How `f_write` goes on** in a round: some bytes have been written (none before the transfer), no space is left, or
there is an error. -/
inductive Progress
  | wrote (wcnt : Nat)
  | full
  | aborted (res : FRESULT)
  deriving DecidableEq, Repr

/-- The cluster that `f_write` goes to at a cluster boundary; the chain is created or stretched for it. -/
def stretchCluster (fp : FIL) (v : Volume) : Kernel (Nat × FIL × Volume) :=
  if fp.fptr = 0 then
    if fp.org_clust = 0 then do
      let (clst, v) ← createChain 0 v
      return (clst, { fp with org_clust := clst }, v)
    else .ok (fp.org_clust, fp, v)
  else do
    let (clst, v) ← createChain fp.curr_clust v
    return (clst, fp, v)

/-- At a cluster boundary `f_write` updates the current cluster. -/
def writeCluster (fp : FIL) (v : Volume) : Kernel (Progress × FIL × Volume) := do
  if fp.csect v ≠ 0 then return (.wrote 0, fp, v)
  else
    let (clst, fp, v) ← stretchCluster fp v
    if clst = 0 then return (.full, fp, v)
    else if clst = 1 then return (.aborted .FR_INT_ERR, fp, v)
    else if clst = 0xFFFFFFFF then return (.aborted .FR_DISK_ERR, fp, v)
    else return (.wrote 0, { fp with curr_clust := clst }, v)

/-- Whole sectors are written directly; the buffer is filled with the one that it is to be. -/
def writeDirect (wbuff : List UInt8) (sect cc : Nat) (fp : FIL) (v : Volume) :
    Kernel (Progress × FIL × Volume) := do
  let (r, disk) ← diskWrite v.disk ((List.range cc).map (bufferSector wbuff)) sect
  if r ≠ .RES_OK then return (.aborted .FR_DISK_ERR, fp, { v with disk })
  else if fp.bufferPlace sect < cc then
    return (.wrote (512 * cc), { fp with buf := bufferSector wbuff (fp.bufferPlace sect), FA__DIRTY := false },
      { v with disk })
  else return (.wrote (512 * cc), fp, { v with disk })

/-- The buffer is taken for the sector `sect`; it is not filled at the growing edge of the file. -/
def takeBuffer (sect : Nat) (fp : FIL) (v : Volume) : Kernel (FRESULT × FIL) :=
  if fp.fptr < fp.fsize then fillBuffer sect fp v else .ok (.FR_OK, { fp with dsect := sect })

/-- The bytes are put into the buffer from the file pointer on. -/
def putPartial (wbuff : List UInt8) (fp : FIL) : Progress × FIL :=
  let wcnt := min (512 - fp.fptr % 512) wbuff.length
  (.wrote wcnt,
    { fp with
      buf := fun i =>
        if fp.fptr % 512 ≤ i ∧ i < fp.fptr % 512 + wcnt then wbuff.getD (i - fp.fptr % 512) 0 else fp.buf i
      FA__DIRTY := true })

/-- The buffer is used by `f_write` for the sector `sect`. -/
def writeBuffered (wbuff : List UInt8) (sect : Nat) (fp : FIL) (v : Volume) : Kernel (Progress × FIL × Volume) := do
  let (res, fp) ← takeBuffer sect fp v
  if res ≠ .FR_OK then return (.aborted res, fp, v)
  else return ((putPartial wbuff fp).1, (putPartial wbuff fp).2, v)

/-- A round of `f_write` in the sector `csect` of the current cluster. -/
def writeSector (wbuff : List UInt8) (csect : Nat) (fp : FIL) (v : Volume) : Kernel (Progress × FIL × Volume) := do
  let (res, fp, v) ← flushBuffer fp v
  if res ≠ .FR_OK then return (.aborted res, fp, v)
  else
    let sect := clust2sect v.layout fp.curr_clust
    if sect = 0 then return (.aborted .FR_INT_ERR, fp, v)
    else if wbuff.length / 512 ≠ 0 then
      writeDirect wbuff (dword (sect + csect)) (clipCount v.fs.csize csect (wbuff.length / 512)) fp v
    else writeBuffered wbuff (dword (sect + csect)) fp v

/-- **One round of the loop of `f_write`.** -/
def writeChunk (wbuff : List UInt8) (fp : FIL) (v : Volume) : Kernel (Progress × FIL × Volume) :=
  if fp.fptr % 512 ≠ 0 then .ok ((putPartial wbuff fp).1, (putPartial wbuff fp).2, v)
  else do
    let csect := fp.csect v
    let (progress, fp, v) ← writeCluster fp v
    if progress ≠ .wrote 0 then return (progress, fp, v) else writeSector wbuff csect fp v

/-- The loop of `f_write`: the result, and the number of bytes that have been written. -/
def writeLoop : Nat → List UInt8 → FIL → Volume → Kernel (FRESULT × Nat × FIL × Volume)
  | 0, _, _, _ => .error .endlessLoop
  | fuel + 1, wbuff, fp, v =>
    if wbuff.length = 0 then .ok (.FR_OK, 0, fp, v)
    else do
      let (progress, fp, v) ← writeChunk wbuff fp v
      match progress with
      | .aborted res => return (res, 0, { fp with FA__ERROR := true }, v)
      | .full => return (.FR_OK, 0, fp, v)
      | .wrote wcnt =>
        let (res, bw, fp, v) ← writeLoop fuel (wbuff.drop wcnt) { fp with fptr := dword (fp.fptr + wcnt) } v
        return (res, wcnt + bw, fp, v)

/-- The end of `f_write`, where it has not been aborted. -/
def endWrite (fp : FIL) : FIL :=
  { fp with fsize := if fp.fsize < fp.fptr then fp.fptr else fp.fsize, FA__WRITTEN := true }

/-- **`f_write(fp, buff, btw, bw)`**, where `wbuff` are the bytes of the buffer: the result, and the number of bytes
that have been written. -/
def fWrite (wbuff : List UInt8) (fp : FIL) (v : Volume) : Kernel (FRESULT × Nat × FIL × Volume) := do
  let res := validate fp v
  if res ≠ .FR_OK then return (res, 0, fp, v)
  else if fp.FA__ERROR = true then return (.FR_INT_ERR, 0, fp, v)
  else if fp.FA_WRITE = false then return (.FR_DENIED, 0, fp, v)
  else
    -- the file size cannot reach 4 GB
    let wbuff := if dword (fp.fsize + wbuff.length) < fp.fsize then [] else wbuff
    let (res, bw, fp, v) ← writeLoop (wbuff.length + 1) wbuff fp v
    if res ≠ .FR_OK then return (res, bw, fp, v) else return (.FR_OK, bw, endWrite fp, v)

/-! ## `f_lseek` -/

/-- Where `f_lseek` begins: the result, the cluster, and the offset from its beginning. The current cluster will do
for a position in it or behind it. -/
def seekStart (ofs ifptr : Nat) (fp : FIL) (v : Volume) : Kernel (FRESULT × Nat × Nat × FIL × Volume) :=
  let bcs := v.fs.csize * 512
  if 0 < ifptr ∧ (ifptr - 1) / bcs ≤ (ofs - 1) / bcs then
    -- `(ifptr - 1) & ~(bcs - 1)`, for a power of two
    let fptr := (ifptr - 1) / bcs * bcs
    .ok (.FR_OK, fp.curr_clust, ofs - fptr, { fp with fptr }, v)
  else if fp.org_clust = 0 then do
    let (clst, v) ← createChain 0 v
    if clst = 1 then return (.FR_INT_ERR, clst, ofs, fp, v)
    else if clst = 0xFFFFFFFF then return (.FR_DISK_ERR, clst, ofs, fp, v)
    else return (.FR_OK, clst, ofs, { fp with org_clust := clst, curr_clust := clst }, v)
  else .ok (.FR_OK, fp.org_clust, ofs, { fp with curr_clust := fp.org_clust }, v)

/-- The cluster that follows in `f_lseek`; the chain is stretched in write mode. -/
def seekNext (clst : Nat) (fp : FIL) (v : Volume) : Kernel (Nat × Volume) :=
  if fp.FA_WRITE = true then createChain clst v else getFat clst v

/-- **The loop of `f_lseek`**, which follows the clusters: the result, the last cluster and the offset in it. -/
def seekLoop : Nat → Nat → Nat → FIL → Volume → Kernel (FRESULT × Nat × Nat × FIL × Volume)
  | 0, _, _, _, _ => .error .endlessLoop
  | fuel + 1, clst, ofs, fp, v =>
    let bcs := v.fs.csize * 512
    if ofs ≤ bcs then .ok (.FR_OK, clst, ofs, fp, v)
    else do
      let (clst, v) ← seekNext clst fp v
      if fp.FA_WRITE = true ∧ clst = 0 then return (.FR_OK, clst, bcs, fp, v)
      else if clst = 0xFFFFFFFF then return (.FR_DISK_ERR, clst, ofs, fp, v)
      else if clst ≤ 1 ∨ v.fs.n_fatent ≤ clst then return (.FR_INT_ERR, clst, ofs, fp, v)
      else seekLoop fuel clst (ofs - bcs) { fp with curr_clust := clst, fptr := dword (fp.fptr + bcs) } v

/-- The clusters are followed up to the offset `ofs`, which is not 0: the result and the sector `nsect`. -/
def seekCluster (ofs ifptr : Nat) (fp : FIL) (v : Volume) : Kernel (FRESULT × Nat × FIL × Volume) := do
  let (res, clst, ofs, fp, v) ← seekStart ofs ifptr fp v
  if res ≠ .FR_OK then return (res, 0, fp, v)
  else if clst = 0 then return (.FR_OK, 0, fp, v)
  else
    let (res, clst, ofs, fp, v) ← seekLoop (ofs + 1) clst ofs fp v
    if res ≠ .FR_OK then return (res, 0, fp, v)
    else
      let fp := { fp with fptr := dword (fp.fptr + ofs) }
      if ofs % 512 = 0 then return (.FR_OK, 0, fp, v)
      else
        let nsect := clust2sect v.layout clst
        if nsect = 0 then return (.FR_INT_ERR, 0, fp, v) else return (.FR_OK, dword (nsect + ofs / 512), fp, v)

/-- The buffer is filled for a position inside of a sector. -/
def seekBuffer (nsect : Nat) (fp : FIL) (v : Volume) : Kernel (FRESULT × FIL × Volume) := do
  if fp.fptr % 512 = 0 ∨ nsect = fp.dsect then return (.FR_OK, fp, v)
  else
    let (res, fp, v) ← flushBuffer fp v
    if res ≠ .FR_OK then return (res, fp, v)
    else
      let (res, fp) ← fillBuffer nsect fp v
      return (res, fp, v)

/-- The end of `f_lseek`: the file may have been extended. -/
def endSeek (fp : FIL) : FIL :=
  if fp.fsize < fp.fptr then { fp with fsize := fp.fptr, FA__WRITTEN := true } else fp

/-- **`f_lseek(fp, ofs)`.** -/
def fLseek (ofs : Nat) (fp : FIL) (v : Volume) : Kernel (FRESULT × FIL × Volume) := do
  let res := validate fp v
  if res ≠ .FR_OK then return (res, fp, v)
  else if fp.FA__ERROR = true then return (.FR_INT_ERR, fp, v)
  else
    let ofs := if fp.fsize < ofs ∧ fp.FA_WRITE = false then fp.fsize else ofs
    let ifptr := fp.fptr
    let fp := { fp with fptr := 0 }
    if ofs = 0 then return (.FR_OK, fp, v)
    else
      let (res, nsect, fp, v) ← seekCluster ofs ifptr fp v
      if res ≠ .FR_OK then return (res, { fp with FA__ERROR := true }, v)
      else
        let (res, fp, v) ← seekBuffer nsect fp v
        if res ≠ .FR_OK then return (res, { fp with FA__ERROR := true }, v) else return (.FR_OK, endSeek fp, v)

/-! ## `f_truncate` -/

/-- The clusters behind the current one are removed. -/
def cutBehind (fp : FIL) (v : Volume) : Kernel (FRESULT × Volume) := do
  let (ncl, v) ← getFat fp.curr_clust v
  if ncl = 0xFFFFFFFF then return (.FR_DISK_ERR, v)
  else if ncl = 1 then return (.FR_INT_ERR, v)
  else if ncl < v.fs.n_fatent then
    let (res, v) ← putFat fp.curr_clust 0x0FFFFFFF v
    if res = .FR_OK then removeChain ncl v else return (res, v)
  else return (.FR_OK, v)

/-- What `f_truncate` does where there is something behind the file pointer. -/
def truncateClusters (fp : FIL) (v : Volume) : Kernel (FRESULT × FIL × Volume) :=
  if fp.fptr = 0 then do
    let (res, v) ← removeChain fp.org_clust v
    return (res, { fp with org_clust := 0 }, v)
  else do
    let (res, v) ← cutBehind fp v
    return (res, fp, v)

/-- **`f_truncate(fp)`.** -/
def fTruncate (fp : FIL) (v : Volume) : Kernel (FRESULT × FIL × Volume) := do
  let res := validate fp v
  if res ≠ .FR_OK then return (res, fp, v)
  else if fp.FA__ERROR = true then return (.FR_INT_ERR, fp, v)
  else if fp.FA_WRITE = false then return (.FR_DENIED, fp, v)
  else if fp.fptr < fp.fsize then
    let (res, fp, v) ← truncateClusters { fp with fsize := fp.fptr, FA__WRITTEN := true } v
    if res ≠ .FR_OK then return (res, { fp with FA__ERROR := true }, v) else return (.FR_OK, fp, v)
  else return (.FR_OK, fp, v)

/-! ## `f_sync` and `f_close` -/

/-- `get_fattime()`. -/
def getFattime : Nat := 0

/-- `ST_CLUST(dir, cl)`, at the offset `dir` of a sector. -/
def stClust (p : Sector) (dir cl : Nat) : Sector := stWord (stWord p (dir + 26) cl) (dir + 20) (cl >>> 16)

/-- The directory entry that `f_sync` stores in the window. -/
def updateEntry (fp : FIL) (win : Sector) : Sector :=
  let win := Function.update win (fp.dir_ptr + 11) (win (fp.dir_ptr + 11) ||| 0x20)
  let win := stDword win (fp.dir_ptr + 28) fp.fsize
  let win := stClust win fp.dir_ptr fp.org_clust
  stDword win (fp.dir_ptr + 22) getFattime

/-- **`f_sync(fp)`.** -/
def fSync (fp : FIL) (v : Volume) : Kernel (FRESULT × FIL × Volume) := do
  let res := validate fp v
  if res ≠ .FR_OK then return (res, fp, v)
  else if fp.FA__WRITTEN = false then return (.FR_OK, fp, v)
  else
    let (res, fp, v) ← flushBuffer fp v
    if res ≠ .FR_OK then return (res, fp, v)
    else
      let (res, v) ← moveWindow fp.dir_sect v
      if res ≠ .FR_OK then return (res, fp, v)
      else
        let v : Volume := { v with fs := { v.fs with win := updateEntry fp v.fs.win, wflag := true } }
        let (res, v) ← sync v
        return (res, { fp with FA__WRITTEN := false }, v)

/-- **`f_close(fp)`.** -/
def fClose (fp : FIL) (v : Volume) : Kernel (FRESULT × FIL × Volume) := do
  let (res, fp, v) ← fSync fp v
  if res = .FR_OK then return (res, { fp with fs := false }, v) else return (res, fp, v)

end KaushOS.Fat
