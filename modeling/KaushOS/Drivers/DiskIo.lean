import KaushOS.Inc.Assert
import Mathlib.Algebra.Group.Nat.Defs
import Mathlib.Logic.Function.Basic

/-! # Sectors of a disk (`kern/drivers/ide.c`)

What `disk_read` and `disk_write` transfer. A request that the device refuses stops the kernel, so that
the requests that return are successful.

* **`Disk`** — a disk and its sectors.
* **`diskRead`**, **`diskWrite`** — a number of sectors, one after the other.
* **`Disk.Answers`** — the sectors that can be transferred.

The commands of a transfer and the interrupts that end them are modelled with the driver itself. -/

namespace KaushOS

/-! ## State -/

/-- `DISK_SECTOR_SIZE`. -/
abbrev DISK_SECTOR_SIZE : Nat := 512

/-- **The bytes of a sector**, by their offset; the offsets from `DISK_SECTOR_SIZE` on are not used. -/
abbrev Sector := Nat → UInt8

/-- **A disk**: what `disk_init` has found out about it, and what it holds. `answers` are the sectors for
which the device raises `STA_DRQ` when it is asked for them. -/
structure Disk where
  is_ata : Bool
  capacity : Nat
  answers : Nat → Bool
  sector : Nat → Sector

/-- **Results of disk functions.** -/
inductive DRESULT
  | RES_OK
  | RES_ERROR
  | RES_WRPRT
  | RES_NOTRDY
  | RES_PARERR
  deriving DecidableEq, Repr

/-! ## One sector -/

/-- **`select_sector(d, sec_no)`.** -/
def selectSector (d : Disk) (sec_no : Nat) : Kernel Unit := do
  assert (sec_no < d.capacity) "sec_no < d->capacity"
  assert (sec_no < 2 ^ 28) "sec_no < (1UL << 28)"

/-- **`disk_read_internal(d, sec_no, buffer)`**: what is read into the buffer. -/
def diskReadInternal (d : Disk) (sec_no : Nat) : Kernel Sector := do
  selectSector d sec_no
  if d.answers sec_no = false then keBugCheck "%s: disk read failed, sector=%"
  else return d.sector sec_no

/-- **`disk_write_internal(d, sec_no, buffer)`.** -/
def diskWriteInternal (d : Disk) (sec_no : Nat) (buffer : Sector) : Kernel Disk := do
  selectSector d sec_no
  if d.answers sec_no = false then keBugCheck "%s: disk write failed, sector=%"
  else return { d with sector := Function.update d.sector sec_no buffer }

/-! ## Several sectors -/

/-- The loop of `disk_read`. -/
def diskReadLoop (d : Disk) : Nat → Nat → Kernel (List Sector)
  | _, 0 => .ok []
  | sec_no, count + 1 => do
    let s ← diskReadInternal d sec_no
    let ss ← diskReadLoop d (sec_no + 1) count
    return s :: ss

/-- **`disk_read(Drive, Buffer, SectorNumber, SectorCount)`**, with the disk that `disk_get` gives for the
drive: the sectors that are read into the buffer. -/
def diskRead (d : Disk) (sectorNumber sectorCount : Nat) : Kernel (DRESULT × List Sector) := do
  assert (d.is_ata = true) "d"
  let ss ← diskReadLoop d sectorNumber sectorCount
  return (.RES_OK, ss)

/-- The loop of `disk_write`. -/
def diskWriteLoop : Nat → List Sector → Disk → Kernel Disk
  | _, [], d => .ok d
  | sec_no, s :: ss, d => do
    let d ← diskWriteInternal d sec_no s
    diskWriteLoop (sec_no + 1) ss d

/-- **`disk_write(Drive, Buffer, SectorNumber, SectorCount)`**, where `sectors` are those of the buffer. -/
def diskWrite (d : Disk) (sectors : List Sector) (sectorNumber : Nat) : Kernel (DRESULT × Disk) := do
  assert (d.is_ata = true) "d"
  let d ← diskWriteLoop sectorNumber sectors d
  return (.RES_OK, d)

/-! ## What the transfers do -/

/-- **A sector can be transferred.** -/
structure Disk.Answers (d : Disk) (s : Nat) : Prop where
  capacity : s < d.capacity
  lba : s < 2 ^ 28
  answers : d.answers s = true

/-- The same disk, with other sectors. -/
def Disk.Same (d d' : Disk) : Prop :=
  d'.is_ata = d.is_ata ∧ d'.capacity = d.capacity ∧ d'.answers = d.answers

theorem Disk.Same.refl (d : Disk) : d.Same d := ⟨rfl, rfl, rfl⟩

theorem Disk.Same.trans {d d' d'' : Disk} (h : d.Same d') (h' : d'.Same d'') : d.Same d'' :=
  ⟨h'.1.trans h.1, h'.2.1.trans h.2.1, h'.2.2.trans h.2.2⟩

/-- What can be transferred does not depend on the sectors. -/
theorem Disk.Answers.same {d d' : Disk} {s : Nat} (h : d.Answers s) (hsame : d.Same d') : d'.Answers s := by
  obtain ⟨-, hcapacity, hanswers⟩ := hsame
  exact ⟨hcapacity ▸ h.capacity, h.lba, by rw [hanswers]; exact h.answers⟩

theorem selectSector_of_answers {d : Disk} {s : Nat} (h : d.Answers s) : selectSector d s = .ok () := by
  rw [selectSector, assert_of_true h.capacity, kernel_ok_bind, assert_of_true h.lba]

/-- **A sector is read.** -/
theorem diskReadInternal_of_answers {d : Disk} {s : Nat} (h : d.Answers s) :
    diskReadInternal d s = .ok (d.sector s) := by
  simp [diskReadInternal, selectSector_of_answers h, h.answers, pure, Except.pure]

/-- **A sector is written.** -/
theorem diskWriteInternal_of_answers {d : Disk} {s : Nat} (h : d.Answers s) (b : Sector) :
    diskWriteInternal d s b = .ok { d with sector := Function.update d.sector s b } := by
  simp [diskWriteInternal, selectSector_of_answers h, h.answers, pure, Except.pure]

theorem diskReadLoop_of_answers {d : Disk} (count : Nat) {s : Nat}
    (h : ∀ i < count, d.Answers (s + i)) :
    diskReadLoop d s count = .ok ((List.range count).map fun i => d.sector (s + i)) := by
  induction count generalizing s with
  | zero => rfl
  | succ count ih =>
    have hrest : ∀ i < count, d.Answers (s + 1 + i) := fun i hi => by
      rw [Nat.add_assoc, Nat.add_comm 1]
      exact h (i + 1) (Nat.succ_lt_succ hi)
    have hfirst : d.Answers s := h 0 (Nat.succ_pos _)
    rw [diskReadLoop, diskReadInternal_of_answers hfirst, kernel_ok_bind, ih hrest,
      kernel_ok_bind, List.range_succ_eq_map, List.map_cons, List.map_map]
    simp only [Function.comp_def, Nat.add_zero, Nat.succ_eq_add_one, Nat.add_assoc, Nat.add_comm 1]
    rfl

/-- **The sectors are read.** -/
theorem diskRead_of_answers {d : Disk} {s count : Nat} (hata : d.is_ata = true)
    (h : ∀ i < count, d.Answers (s + i)) :
    diskRead d s count = .ok (.RES_OK, (List.range count).map fun i => d.sector (s + i)) := by
  rw [diskRead, assert_of_true hata, kernel_ok_bind, diskReadLoop_of_answers count h, kernel_ok_bind]
  rfl

/-- The sectors `ss` are stored from the sector `s` on. -/
def storeSectors (sector : Nat → Sector) (s : Nat) (ss : List Sector) : Nat → Sector :=
  fun k => if s ≤ k then ss.getD (k - s) (sector k) else sector k

theorem storeSectors_nil (sector : Nat → Sector) (s : Nat) : storeSectors sector s [] = sector := by
  funext k
  simp [storeSectors]

theorem storeSectors_cons (sector : Nat → Sector) (s : Nat) (b : Sector) (ss : List Sector) :
    storeSectors sector s (b :: ss) = storeSectors (Function.update sector s b) (s + 1) ss := by
  funext k
  unfold storeSectors
  obtain hlt | rfl | hgt := Nat.lt_trichotomy k s
  · rw [if_neg (by omega), if_neg (by omega), Function.update_of_ne (by omega)]
  · rw [if_pos k.le_refl, if_neg (by omega), Nat.sub_self, List.getD_cons_zero, Function.update_self]
  · rw [if_pos (by omega), if_pos (by omega), Function.update_of_ne (by omega),
      show k - s = k - (s + 1) + 1 by omega, List.getD_cons_succ]

theorem storeSectors_one (sector : Nat → Sector) (s : Nat) (b : Sector) :
    storeSectors sector s [b] = Function.update sector s b := by
  rw [storeSectors_cons, storeSectors_nil]

/-- A number of sectors is stored. -/
theorem storeSectors_range (sector f : Nat → Sector) (s count k : Nat) :
    storeSectors sector s ((List.range count).map f) k
      = if s ≤ k ∧ k - s < count then f (k - s) else sector k := by
  unfold storeSectors
  by_cases hle : s ≤ k
  · rw [if_pos hle, List.getD_eq_getElem?_getD, List.getElem?_map]
    by_cases hlt : k - s < count
    · rw [if_pos ⟨hle, hlt⟩, List.getElem?_range hlt]
      rfl
    · rw [if_neg fun h => hlt h.2, List.getElem?_eq_none (by rw [List.length_range]; omega)]
      rfl
  · rw [if_neg hle, if_neg fun h => hle h.1]

theorem diskWriteLoop_of_answers (ss : List Sector) {d : Disk} {s : Nat}
    (h : ∀ i < ss.length, d.Answers (s + i)) :
    diskWriteLoop s ss d = .ok { d with sector := storeSectors d.sector s ss } := by
  induction ss generalizing d s with
  | nil => rw [storeSectors_nil]; rfl
  | cons b ss ih =>
    have hrest : ∀ i < ss.length, d.Answers (s + 1 + i) := fun i hi => by
      rw [Nat.add_assoc, Nat.add_comm 1]
      exact h (i + 1) (Nat.succ_lt_succ hi)
    have hfirst : d.Answers s := h 0 (Nat.succ_pos _)
    have hsame : d.Same { d with sector := Function.update d.sector s b } := ⟨rfl, rfl, rfl⟩
    rw [diskWriteLoop, diskWriteInternal_of_answers hfirst, kernel_ok_bind,
      ih fun i hi => (hrest i hi).same hsame, storeSectors_cons]

/-- **The sectors are written.** -/
theorem diskWrite_of_answers {d : Disk} {s : Nat} {ss : List Sector} (hata : d.is_ata = true)
    (h : ∀ i < ss.length, d.Answers (s + i)) :
    diskWrite d ss s = .ok (.RES_OK, { d with sector := storeSectors d.sector s ss }) := by
  rw [diskWrite, assert_of_true hata, kernel_ok_bind, diskWriteLoop_of_answers ss h, kernel_ok_bind]
  rfl

end KaushOS
