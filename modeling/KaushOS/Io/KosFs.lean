import KaushOS.Io.Irp

/-! # The file system driver (`kern/fs/kosfs.c`, `kern/fs/ff.h`)

The driver keeps a `FIL` of the FAT file system for each open file. Here this file system may answer any of its codes.

* **`FRESULT`**, **`FatFs`** — the codes and the functions of the file system.
* **`kfsCreate`**, **`kfsClose`**, **`kfsRead`**, **`kfsWrite`** — the dispatch routines of the driver.
* **`CreateBehaviour`** — what a create routine may do, of which `kfsCreate` is an instance. -/

namespace KaushOS

variable {ω π ι φ : Type} [DecidableEq ω] [DecidableEq π] [DecidableEq ι] [DecidableEq φ]

open Io

/-! ## The FAT file system -/

/-- **The codes of the FAT file system.** -/
inductive FRESULT
  | FR_OK
  | FR_DISK_ERR
  | FR_INT_ERR
  | FR_NOT_READY
  | FR_NO_FILE
  | FR_NO_PATH
  | FR_INVALID_NAME
  | FR_DENIED
  | FR_EXIST
  | FR_INVALID_OBJECT
  | FR_WRITE_PROTECTED
  | FR_INVALID_DRIVE
  | FR_NOT_ENABLED
  | FR_NO_FILESYSTEM
  | FR_MKFS_ABORTED
  | FR_TIMEOUT
  | FR_LOCKED
  | FR_NOT_ENOUGH_CORE
  | FR_TOO_MANY_OPEN_FILES
  deriving DecidableEq, Repr

/-- The number of a code: they are enumerated from 0 on. -/
def FRESULT.value (code : FRESULT) : Int := code.ctorIdx

/-- No code is negative. -/
theorem success_fresult (code : FRESULT) : success code.value := Int.natCast_nonneg _

/-- The first code is the one for success. -/
theorem FRESULT.value_eq_zero_iff {code : FRESULT} : code.value = 0 ↔ code = .FR_OK := by
  cases code <;> decide

/-- **The functions of the FAT file system**, as far as their callers see what they do: `f_open(fp, path, mode)`,
`f_close(fp)`, and for `f_read(fp, buff, btr, br)` and `f_write(fp, buff, btw, bw)` also the number of bytes. -/
structure FatFs (φ : Type) where
  f_open : φ → List Char → UInt8 → FRESULT
  f_close : φ → FRESULT
  f_read : φ → UInt32 → UInt32 → FRESULT × UInt32
  f_write : φ → UInt32 → UInt32 → FRESULT × UInt32

/-! ## Modes -/

def O_RDONLY : UInt32 := 0x0000
def O_WRONLY : UInt32 := 0x0001
def O_RDWR : UInt32 := 0x0002
def O_CREATE : UInt32 := 0x0100
def O_TRUNC : UInt32 := 0x0200
def O_EXCL : UInt32 := 0x0400
def O_MKDIR : UInt32 := 0x0800

def FA_READ : UInt8 := 0x01
def FA_WRITE : UInt8 := 0x02
def FA_CREATE_NEW : UInt8 := 0x04
def FA_OPEN_ALWAYS : UInt8 := 0x10

/-- **`FileModeToFSMode(FileMode)`.** -/
def fileModeToFSMode (fileMode : UInt32) : Kernel UInt8 := do
  let mode := if fileMode = O_RDONLY then FA_READ else 0
  let mode := if fileMode &&& O_WRONLY ≠ 0 then mode ||| (FA_WRITE ||| FA_OPEN_ALWAYS) else mode
  let mode := if fileMode &&& O_RDWR ≠ 0 then mode ||| (FA_READ ||| FA_WRITE ||| FA_OPEN_ALWAYS) else mode
  let mode := if fileMode &&& O_CREATE ≠ 0 then mode ||| FA_CREATE_NEW else mode
  let mode := if fileMode &&& O_TRUNC ≠ 0 then mode ||| (FA_READ ||| FA_OPEN_ALWAYS) else mode
  let mode := if fileMode &&& O_EXCL ≠ 0 then mode ||| FA_CREATE_NEW else mode
  if fileMode &&& O_MKDIR ≠ 0 then keBugCheck "Not Yet done!!" else return mode

/-! ## Dispatch routines -/

/-- The tag `' BCF'` of what the driver keeps about a file. -/
def TAG_BCF : UInt32 := 0x20424346

/-- The context of a file is stored. -/
def setFsContext (x : ω) (context : Option φ) (s : IoSpace ω π ι φ) : IoSpace ω π ι φ :=
  setFile x { s.file x with FsContext := context } s

/-- **`KfsCreate(DeviceObject, Irp)`**, with the block `memory` for the `FIL`. -/
def kfsCreate (fat : FatFs φ) (memory : Option φ) (i : ι) (s : IoSpace ω π ι φ) :
    Kernel (Int × IoSpace ω π ι φ) := do
  let x := (s.irp i).pFileObj
  assert ((s.file x).FsContext = none) "pFileObject->FsContext == NULL"
  match memory with
  | none => return (KSTATUS.STATUS_INSUFFICIENT_RESOURCES.value, s)
  | some f => do
    let s := allocate (.context f) TAG_BCF s
    let mode ← fileModeToFSMode (s.file x).FileMode
    let status := (fat.f_open f (s.file x).filename mode).value
    if ¬ success status then
      assert False "0"
      -- `ExFreePool` takes a block whatever its tag is
      let s ← free (.context f) ((s.ioBlock (.context f)).getD 0) s
      return (status, setFsContext x none s)
    else return (status, ioCompleteRequest i (setFsContext x (some f) s))

/-- **`KfsClose(DeviceObject, pIrp)`.** -/
def kfsClose (fat : FatFs φ) (i : ι) (s : IoSpace ω π ι φ) : Kernel (Int × IoSpace ω π ι φ) := do
  let f ← deref (s.file (s.irp i).pFileObj).FsContext
  let status := (fat.f_close f).value
  assert (status = KSTATUS.STATUS_SUCCESS.value) "Status == STATUS_SUCCESS"
  let s ← free (.context f) TAG_BCF s
  return (status, ioCompleteRequest i s)

/-- The end of `KfsRead` and `KfsWrite`. -/
def completeTransfer (i : ι) (status : Int) (information : UInt32) (s : IoSpace ω π ι φ) : Int × IoSpace ω π ι φ :=
  (status, ioCompleteRequest i (setIrp i { s.irp i with IoStatus := ⟨status, information⟩ } s))

/-- **`KfsRead(DeviceObject, Irp)`.** -/
def kfsRead (fat : FatFs φ) (i : ι) (s : IoSpace ω π ι φ) : Kernel (Int × IoSpace ω π ι φ) := do
  let irp := s.irp i
  assert ((s.file irp.pFileObj).FsContext.isSome = true) "Fcb"
  let f ← deref (s.file irp.pFileObj).FsContext
  assert ((irp.IoStack irp.CurrentStackLocation).MajorFunction = IRP_MJ_READ) "pIosp->MajorFunction == IRP_MJ_READ"
  let (code, bytesRead) := fat.f_read f irp.Buffer irp.BufferSize
  assert (code.value = FRESULT.FR_OK.value) "Status == FR_OK"
  return completeTransfer i code.value bytesRead s

/-- **`KfsWrite(DeviceObject, Irp)`.** -/
def kfsWrite (fat : FatFs φ) (i : ι) (s : IoSpace ω π ι φ) : Kernel (Int × IoSpace ω π ι φ) := do
  let irp := s.irp i
  assert ((irp.IoStack irp.CurrentStackLocation).MajorFunction = IRP_MJ_WRITE) "pIosp->MajorFunction == IRP_MJ_WRITE"
  assert ((s.file irp.pFileObj).FsContext.isSome = true) "Fcb != NULL"
  let f ← deref (s.file irp.pFileObj).FsContext
  let (code, bytesWritten) := fat.f_write f irp.Buffer irp.BufferSize
  return completeTransfer i code.value bytesWritten s

/-- **The device of the driver**, with the dispatch routines of `KFSDriverEntry`; the other ones stop the kernel. -/
def kfsDevice (fat : FatFs φ) (memory : Option φ) : DEVICE_OBJECT ω π ι φ where
  StackSize := 1
  MajorFunction majorFunction :=
    if majorFunction = IRP_MJ_CREATE then kfsCreate fat memory
    else if majorFunction = IRP_MJ_CLOSE then kfsClose fat
    else if majorFunction = IRP_MJ_READ then kfsRead fat
    else if majorFunction = IRP_MJ_WRITE then kfsWrite fat
    else fun _ _ => keBugCheck "KePassThrough: Passthroughs are not yet supported\n"

/-! ## Any create routine -/

/-- **What a create routine does**: the status that it returns, the context that it has created for the file, if
any, and whether it has completed the packet. -/
structure CreateBehaviour (φ : Type) where
  status : Int
  context : Option φ
  completes : Bool

/-- The create routine that does so. -/
def CreateBehaviour.dispatch (b : CreateBehaviour φ) (i : ι) (s : IoSpace ω π ι φ) :
    Kernel (Int × IoSpace ω π ι φ) :=
  let s :=
    match b.context with
    | none => s
    | some f => setFsContext (s.irp i).pFileObj (some f) (allocate (.context f) TAG_BCF s)
  .ok (b.status, if b.completes then ioCompleteRequest i s else s)

/-- **A device with any create routine**, and the other ones of the driver. -/
def fileDevice (stackSize : Int) (b : CreateBehaviour φ) (fat : FatFs φ) : DEVICE_OBJECT ω π ι φ where
  StackSize := stackSize
  MajorFunction majorFunction :=
    if majorFunction = IRP_MJ_CREATE then b.dispatch else (kfsDevice fat none).MajorFunction majorFunction

/-- What the create routine of the driver does. -/
def kfsBehaviour (fat : FatFs φ) (memory : Option φ) (filename : List Char) (mode : UInt8) : CreateBehaviour φ :=
  match memory with
  | none => ⟨KSTATUS.STATUS_INSUFFICIENT_RESOURCES.value, none, false⟩
  | some f => ⟨(fat.f_open f filename mode).value, some f, true⟩

omit [DecidableEq π] in
/-- **`KfsCreate` is one of them**, if it returns. -/
theorem kfsCreate_eq_ok {fat : FatFs φ} {memory : Option φ} {i : ι} {s s' : IoSpace ω π ι φ} {status : Int}
    (h : kfsCreate fat memory i s = .ok (status, s')) :
    ∃ mode, (memory ≠ none → fileModeToFSMode (s.file (s.irp i).pFileObj).FileMode = .ok mode)
      ∧ CreateBehaviour.dispatch
        (kfsBehaviour fat memory (s.file (s.irp i).pFileObj).filename mode) i s = .ok (status, s') := by
  obtain ⟨_, -, h⟩ := kernel_bind_eq_ok.mp h
  cases memory with
  | none => exact ⟨0, fun hnone => absurd rfl hnone, h⟩
  | some f =>
    obtain ⟨mode, hmode, h⟩ := kernel_bind_eq_ok.mp h
    dsimp only at h
    rw [if_neg (not_not_intro (success_fresult _))] at h
    exact ⟨mode, fun _ => hmode, h⟩

end KaushOS
