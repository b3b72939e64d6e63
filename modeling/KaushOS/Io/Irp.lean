import KaushOS.Ob.DeviceResolution

/-! # I/O request packets (`kern/io/io.h`, `kern/io/io.c`, `kern/io/iofile.c`)

The I/O manager sends a driver a request packet for each operation on a file object. Here a status is the number
that it is in the kernel, which is an error if it is negative; drivers are free to return others than those of the
object manager.

* **`IoSpace`** — the name space with file objects, request packets and the pool blocks of these.
* **`ioBuildIrp`**, **`ioCallDriver`**, **`ioFreeIRP`** — a packet from its beginning to its end.
* **`ioFileOperations`** — an operation on a file object.
* **`Io.obDereferenceObject`** — dropping a reference to a file object, the last of which closes the file.
* **`ioCreateFile`** — opening a file. -/

namespace KaushOS

/-! ## Status codes as numbers -/

/-- The value of a status, as a `LONG`. -/
def KSTATUS.value : KSTATUS → Int
  | .STATUS_SUCCESS => 0
  | .STATUS_INVALID_PARAMETER => 0xC000000D - 4294967296
  | .STATUS_OBJECT_NAME_NOT_FOUND => 0xC0000034 - 4294967296
  | .STATUS_OBJECT_NAME_COLLISION => 0xC0000035 - 4294967296
  | .STATUS_OBJECT_PATH_NOT_FOUND => 0xC000003A - 4294967296
  | .STATUS_INSUFFICIENT_RESOURCES => 0xC000009A - 4294967296
  | .STATUS_TOO_MANY_OPENED_FILES => 0xC000011F - 4294967296

/-- `success(Status)`, the same as `K_SUCCESS(Status)`. -/
def success (status : Int) : Prop := status ≥ 0

instance (status : Int) : Decidable (success status) := inferInstanceAs (Decidable (status ≥ 0))

/-- **Of the object manager's codes** the one for success alone is not negative. -/
theorem success_value_iff (status : KSTATUS) : success status.value ↔ K_SUCCESS status := by
  cases status <;> decide

/-! ## Files and request packets -/

/-- `MAXPATHLEN` -/
def MAXPATHLEN : Nat := 1024

def IRP_MJ_CREATE : UInt8 := 0x00
def IRP_MJ_CLOSE : UInt8 := 0x02
def IRP_MJ_READ : UInt8 := 0x03
def IRP_MJ_WRITE : UInt8 := 0x04
def IRP_MN_NULL : UInt8 := 0x0

/-- `FILE_OBJECT`: the members that are read; `φ` are the addresses of what drivers keep about open files. -/
structure FILE_OBJECT (ω φ : Type) where
  DeviceObject : Option ω
  FileMode : UInt32
  FileOffset : UInt32
  filename : List Char
  FsContext : Option φ

/-- `IO_STACK_LOCATION` -/
structure IO_STACK_LOCATION where
  MajorFunction : UInt8
  MinorFunction : UInt8
  deriving DecidableEq, Repr

/-- `IO_STATUS_BLOCK` -/
structure IO_STATUS_BLOCK where
  Status : Int
  Information : UInt32
  deriving DecidableEq, Repr

/-- `IRP`, but for the members for cancelling; `Buffer` is an address. -/
structure IRP (ω : Type) where
  Buffer : UInt32
  BufferSize : UInt32
  pFileObj : ω
  Offset : UInt32
  IoStack : Int → IO_STACK_LOCATION
  CurrentStackLocation : Int
  Completed : Bool
  IoStatus : IO_STATUS_BLOCK

/-- **A block of the pool** other than object headers and names: a packet, or what a driver keeps. -/
inductive IoBlock (ι φ : Type)
  | irp (i : ι)
  | context (f : φ)
  deriving DecidableEq, Repr

/-- What happens to such a block. -/
inductive IoEvent (ι φ : Type)
  | allocated (b : IoBlock ι φ)
  | freed (b : IoBlock ι φ)
  deriving DecidableEq, Repr

/-- **The I/O manager's state.** `file` and `irp` are the memory at their addresses, `ioBlock` the tags of the
blocks that are allocated; `log` is no part of the kernel: what has happened to these blocks. -/
structure IoSpace (ω π ι φ : Type) extends DeviceSpace ω π where
  file : ω → FILE_OBJECT ω φ
  irp : ι → IRP ω
  ioBlock : IoBlock ι φ → Option UInt32
  log : List (IoEvent ι φ)

/-- `DEVICE_OBJECT` with the dispatch routines of its `DriverObject`; each one returns a status. -/
structure DEVICE_OBJECT (ω π ι φ : Type) where
  StackSize : Int
  MajorFunction : UInt8 → ι → IoSpace ω π ι φ → Kernel (Int × IoSpace ω π ι φ)

/-- The tag `'IprI'` of packets. -/
def TAG_IprI : UInt32 := 0x49707249

/-- The tag `'eliF'` of file objects. -/
def TAG_eliF : UInt32 := 0x656C6946

variable {ω π ι φ : Type} [DecidableEq ω] [DecidableEq π] [DecidableEq ι] [DecidableEq φ]

/-- `IoFileObjectType`; its `CloseProcedure` is `IoCloseFile`. -/
def ioFileObjectType : OBJECT_TYPE ω := ⟨TAG_eliF, none⟩

namespace Io

/-- Store to a file object. -/
def setFile (x : ω) (file : FILE_OBJECT ω φ) (s : IoSpace ω π ι φ) : IoSpace ω π ι φ :=
  { s with file := Function.update s.file x file }

/-- Store to a packet. -/
def setIrp (i : ι) (irp : IRP ω) (s : IoSpace ω π ι φ) : IoSpace ω π ι φ :=
  { s with irp := Function.update s.irp i irp }

/-- `ExAllocatePoolWithTag(..., Tag)`, for the block that is handed out. -/
def allocate (b : IoBlock ι φ) (tag : UInt32) (s : IoSpace ω π ι φ) : IoSpace ω π ι φ :=
  { s with ioBlock := Function.update s.ioBlock b (some tag), log := s.log ++ [.allocated b] }

/-- `ExFreePoolWithTag(P, Tag)`. -/
def free (b : IoBlock ι φ) (tag : UInt32) (s : IoSpace ω π ι φ) : Kernel (IoSpace ω π ι φ) :=
  if s.ioBlock b ≠ some tag then
    keBugCheck " Verification Failed Status 0x%x pooltype 0x%x oldtag %s newtag %s\n"
  else .ok { s with ioBlock := Function.update s.ioBlock b none, log := s.log ++ [.freed b] }

end Io

open Io

/-! ## A packet -/

/-- **`IoBuildIrp(pFileObj, MajorFunction, MinorFunction, Buffer, BufferSize, Offset)`** in the block `memory`. -/
def ioBuildIrp (pFileObj : ω) (majorFunction minorFunction : UInt8) (buffer bufferSize offset : UInt32)
    (memory : Option ι) (s : IoSpace ω π ι φ) : Option ι × IoSpace ω π ι φ :=
  match memory with
  | none => (none, s)
  | some i =>
    let s := allocate (.irp i) TAG_IprI s
    let irp := { s.irp i with
      CurrentStackLocation := -1, pFileObj, Offset := offset, Buffer := buffer, BufferSize := bufferSize
      Completed := false }
    -- `IoGetNextIrpStackLocation`
    let irp := { irp with
      IoStack := Function.update irp.IoStack (irp.CurrentStackLocation + 1) ⟨majorFunction, minorFunction⟩ }
    (some i, setIrp i irp s)

/-- `IoCompleteRequest(pIrp, INCREMENT)`. -/
def ioCompleteRequest (i : ι) (s : IoSpace ω π ι φ) : IoSpace ω π ι φ :=
  setIrp i { s.irp i with Completed := true } s

/-- `IoFreeIRP(pIrp)`. -/
def ioFreeIRP (i : ι) (s : IoSpace ω π ι φ) : Kernel (IoSpace ω π ι φ) := free (.irp i) TAG_IprI s

variable (device : ω → DEVICE_OBJECT ω π ι φ)

/-- **`IoCallDriver(pDeviceObject, pIrp)`.** -/
def ioCallDriver (deviceObject : Option ω) (i : ι) (s : IoSpace ω π ι φ) : Kernel (Int × IoSpace ω π ι φ) := do
  -- `IoAdvanceIrpStackPointer`
  let s := setIrp i { s.irp i with CurrentStackLocation := (s.irp i).CurrentStackLocation + 1 } s
  let d ← deref deviceObject
  if (s.irp i).CurrentStackLocation ≥ (device d).StackSize then
    keBugCheck "Crossed Irp stack size;  current Irp stack index %d, total stack size %d\n"
  else
    let pIosp := (s.irp i).IoStack (s.irp i).CurrentStackLocation
    (device d).MajorFunction pIosp.MajorFunction i s

/-- **`IoFileOperations(FileObject, Buffer, NumberOfBytes, MajorFunction, MinorFunction)`**, with the packet in the
block `memory`. -/
def ioFileOperations (fileObject : Option ω) (buffer numberOfBytes : UInt32) (majorFunction minorFunction : UInt8)
    (memory : Option ι) (s : IoSpace ω π ι φ) : Kernel (Int × IoSpace ω π ι φ) :=
  match fileObject with
  | none => do
    assert False "0"
    return (KSTATUS.STATUS_INVALID_PARAMETER.value, s)
  | some x => do
    let (pIrp, s) := ioBuildIrp x majorFunction minorFunction buffer numberOfBytes (s.file x).FileOffset memory s
    assert (pIrp.isSome = true) "pIrp"
    match pIrp with
    | none => return (KSTATUS.STATUS_INSUFFICIENT_RESOURCES.value, s)
    | some i => do
      let (status, s) ← ioCallDriver device (s.file x).DeviceObject i s
      let s ← ioFreeIRP i s
      return (status, s)

/-- **`IoCloseFile(FileObject)`.** -/
def ioCloseFile (x : ω) (memory : Option ι) (s : IoSpace ω π ι φ) : Kernel (Int × IoSpace ω π ι φ) :=
  if (s.file x).FsContext = none then .ok (KSTATUS.STATUS_SUCCESS.value, s)
  else ioFileOperations device (some x) 0 0 IRP_MJ_CLOSE IRP_MN_NULL memory s

/-! ## Dropping a reference -/

namespace Io

/-- **`ObRemoveObject(Object)`** for a file object: the `CloseProcedure` of its type closes the file, for which
`memory` is the packet. -/
def obRemoveObject (x : ω) (memory : Option ι) (s : IoSpace ω π ι φ) : Kernel (IoSpace ω π ι φ) := do
  assert ((s.ob.header x).RefCount = 0) "ObjectHeader->RefCount == 0"
  assert ((s.ob.header x).OpenHandleCount = 0) "ObjectHeader->OpenHandleCount == 0"
  assert ((s.ob.header x).Attributes &&& OBJ_PERMANENT = 0)
    "(ObjectHeader->Attributes & OBJ_PERMANENT) == 0"
  let (_, s) ← ioCloseFile device x memory s
  let objects ← Pooled.exFreePoolWithTag (.header x) TAG_eliF
    { s.toObjects with ob := { s.ob with objects := s.ob.objects.erase x } }
  return { s with toObjects := objects }

/-- **`ObCloseObject(Object, HandleCount)`** for a file object. -/
def obCloseObject (x : ω) (handleCount : Nat) (memory : Option ι) (s : IoSpace ω π ι φ) :
    Kernel (IoSpace ω π ι φ) := do
  assert ((s.ob.header x).RefCount ≥ 1) "ObjectHeader->RefCount >= 1"
  if (s.ob.header x).Attributes &&& OBJ_PERMANENT ≠ 0 then
    assert ((s.ob.header x).ObjectName.Buffer ≠ none) "ObjectHeader->ObjectName.Buffer != NULL"
    return s
  else
    let s := { s with ob := s.ob.setHeader x (closedHeader handleCount (s.ob.header x)) }
    if (s.ob.header x).RefCount > 0 then return s
    else obRemoveObject device x memory s

/-- **`ObDereferenceObject(Object)`** for a file object. -/
def obDereferenceObject (x : ω) (memory : Option ι) (s : IoSpace ω π ι φ) : Kernel (IoSpace ω π ι φ) := do
  assert (obIsValidObject x s.ob = true) "ObIsValidObject(Object)"
  obCloseObject device x 0 memory s

end Io

/-! ## Opening a file -/

/-- **A call of `IoCreateFile`**, with what it gets from outside: `status` and `pathRemaining` are what the
variables of these names happen to hold, `blocks` is for the file object, and `irp` and `closeIrp` are for the
packets. -/
structure FileCreation (ω π ι : Type) where
  filename : List Char
  fileMode : UInt32
  process : π
  status : Int
  pathRemaining : List Char
  nameBuffer : Bool
  blocks : CreateBlocks ω
  irp : Option ι
  closeIrp : Option ι

/-- The attributes of file objects. -/
def fileAttributes : OBJECT_ATTRIBUTES := ⟨none, none, OBJ_INHERIT⟩

/-- What the variables `Status`, `PathRemaining` and `DeviceObject` hold after `ObGetDeviceObject`. -/
def FileCreation.found (call : FileCreation ω π ι) (result : DeviceResult ω) : Int × List Char × Option ω :=
  match result with
  | some (status, pathRemaining, deviceObject) =>
    (status.value, pathRemaining.getD call.pathRemaining, deviceObject)
  | none => (call.status, call.pathRemaining, none)

/-- `IoCreateFile` with a packet `i` for the file object `x`: the driver creates the file, and a handle is
inserted. -/
def createByDriver (call : FileCreation ω π ι) (deviceObject : Option ω) (x : ω) (i : ι) (s : IoSpace ω π ι φ) :
    Kernel (Int × Option (Fin EX_MAX_HANDLE) × IoSpace ω π ι φ) := do
  let (status, s) ← ioCallDriver device deviceObject i s
  if ¬ success status then
    let s ← Io.obDereferenceObject device x call.closeIrp s
    return (status, none, s)
  else
    let (status, handle, ob) ← obInsertObject x call.process s.ob
    let s := { s with ob }
    if ¬ K_SUCCESS status then
      let s ← Io.obDereferenceObject device x call.closeIrp s
      return (status.value, none, s)
    else
      let s ← ioFreeIRP i s
      return (status.value, handle, s)

/-- `IoCreateFile` with a file object `x`, which is filled in; the rest of it has been cleared. -/
def createFileObject (call : FileCreation ω π ι) (pathRemaining : List Char) (deviceObject : Option ω) (x : ω)
    (s : IoSpace ω π ι φ) : Kernel (Int × Option (Fin EX_MAX_HANDLE) × IoSpace ω π ι φ) := do
  let s := setFile x ⟨deviceObject, call.fileMode, 0, strncpy pathRemaining MAXPATHLEN, none⟩ s
  let (pIrp, s) := ioBuildIrp x IRP_MJ_CREATE IRP_MN_NULL 0 0 0 call.irp s
  match pIrp with
  | none => do
    let s ← Io.obDereferenceObject device x call.closeIrp s
    return (KSTATUS.STATUS_INSUFFICIENT_RESOURCES.value, none, s)
  | some i => createByDriver device call deviceObject x i s

/-- **`IoCreateFile(Filename, FileMode, pHandle)`**: the status, what is stored to `*pHandle`, and the state. -/
def ioCreateFile (call : FileCreation ω π ι) (s : IoSpace ω π ι φ) :
    Kernel (Int × Option (Fin EX_MAX_HANDLE) × IoSpace ω π ι φ) := do
  let result ← obGetDeviceObject call.filename call.nameBuffer none s.toDeviceSpace
  let (status, pathRemaining, deviceObject) := call.found result
  if ¬ success status then
    assert False "0"
    return (status, none, s)
  else
    let (status, pFileObj, objects) ← Pooled.obCreateObject (fun _ => ioFileObjectType) .OBJECT_TYPE_FILE
      (some fileAttributes) call.process call.blocks s.toObjects
    let s := { s with toObjects := objects }
    if ¬ K_SUCCESS status then
      assert False "0"
      return (status.value, none, s)
    else
      assert (pFileObj.isSome = true) "pFileObj"
      let x ← deref pFileObj
      createFileObject device call pathRemaining deviceObject x s

end KaushOS
