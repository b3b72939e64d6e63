import KaushOS.Io.FileCreation
import KaushOS.Ob.HandleLookup

/-! # Reading and writing a file (`kern/io/iofile.c`, `kern/io/io.c`, `kern/fs/kosfs.c`)

`KReadFile` and `KWriteFile` take a reference to the file object of a handle, send its driver a packet and drop the
reference again. One of them returns what the driver has returned, the other one the status of the lookup.

* **`kReadFile`**, **`kWriteFile`** — the two functions.
* **`FileHandle`** — a handle of a file; **`opened_fileHandle`**: opening a file gives one.
* **`TransferRoutine`** — what a read or write routine of a driver leaves alone.
* **`file_operation_kept`** — an operation on a file keeps the object and gives the packet back.
* **`file_transfer_iff`** — when reading and writing return what the driver has returned. -/

namespace KaushOS

open Io

variable {ω π ι φ : Type} [DecidableEq ω] [DecidableEq ι] [DecidableEq φ]

/-! ## The functions -/

/-- The file object of a handle in process `p`, with one reference more; an assertion fails if there is none. -/
def referenceFileObject (handle : UInt32) (p : π) (s : IoSpace ω π ι φ) :
    Kernel (KSTATUS × ω × IoSpace ω π ι φ) := do
  let (status, object, ob) ←
    ByHandle.obReferenceObjectByHandle (fun _ => none) handle p (some .OBJECT_TYPE_FILE) s.ob
  assert (K_SUCCESS status) "0"
  match object with
  | .object x => return (status, x, { s with ob })
  | .invalid | .null => .error .nullPointer

variable (device : ω → DEVICE_OBJECT ω π ι φ)

/-- **`KReadFile(Handle, Buffer, NumberOfBytes)`** in process `p`, with the packet in the block `memory`. -/
def kReadFile (handle buffer numberOfBytes : UInt32) (p : π) (memory closeMemory : Option ι) (s : IoSpace ω π ι φ) :
    Kernel (Int × IoSpace ω π ι φ) := do
  let (_, x, s) ← referenceFileObject handle p s
  let (status, s) ← ioFileOperations device (some x) buffer numberOfBytes IRP_MJ_READ IRP_MN_NULL memory s
  let s ← Io.obDereferenceObject device x closeMemory s
  return (status, s)

/-- **`KWriteFile(Handle, Buffer, NumberOfBytes)`** in process `p`, with the packet in the block `memory`. -/
def kWriteFile (handle buffer numberOfBytes : UInt32) (p : π) (memory closeMemory : Option ι) (s : IoSpace ω π ι φ) :
    Kernel (Int × IoSpace ω π ι φ) := do
  let (status, x, s) ← referenceFileObject handle p s
  -- what `IoFileOperations` returns is not looked at
  let (_, s) ← ioFileOperations device (some x) buffer numberOfBytes IRP_MJ_WRITE IRP_MN_NULL memory s
  let s ← Io.obDereferenceObject device x closeMemory s
  return (status.value, s)

variable {device} {s s' t : IoSpace ω π ι φ} {x : ω} {i : ι} {p : π} {handle buffer numberOfBytes : UInt32}
  {status : Int} {memory closeMemory : Option ι} {majorFunction : UInt8}

/-! ## Handles of files -/

/-- **A handle of the file object `x`**, as `IoCreateFile` makes them: it is in use and not permanent. -/
structure FileHandle (s : Ob ω π) (p : π) (handle : UInt32) (x : ω) : Prop where
  entry : ∃ h : handle.toNat < EX_MAX_HANDLE, s.Handle p ⟨handle.toNat, h⟩ = .object x
  valid : obIsValidObject x s = true
  type : (s.header x).ObjectType = some .OBJECT_TYPE_FILE
  referenced : 0 < (s.header x).RefCount
  temporary : (s.header x).Attributes &&& OBJ_PERMANENT = 0

/-- **A file that has been opened** has such a handle. -/
theorem FileOutcome.fileHandle [DecidableEq π] {n : Int} {b : CreateBehaviour φ} {fat : FatFs φ}
    {call : FileCreation ω π ι} {file : FILE_OBJECT ω φ} {j : Fin EX_MAX_HANDLE}
    (h : FileOutcome (fun _ => fileDevice n b fat) call s file status (some j) s') :
    ∃ x, FileHandle s'.ob call.process (UInt32.ofNat j) x := by
  cases h with
  | @opened x d i j status t s' hx hcontext hirp hcreate hstatus hfree hdone =>
    obtain ⟨-, hspace, -, -, -⟩ := dispatch_eq_ok hcontext hcreate
    have hob : t.ob = (withFile x file s).ob := congrArg (fun s : DeviceSpace ω π => s.ob) hspace
    have hheader : t.ob.header x = openedHeader .OBJECT_TYPE_FILE (some fileAttributes) clearedHeader := by
      rw [hob]
      exact withFile_header
    have hsize : EX_MAX_HANDLE < UInt32.size := by
      unfold EX_MAX_HANDLE
      decide
    have hj : (UInt32.ofNat j).toNat = j := UInt32.toNat_ofNat_of_lt' (j.isLt.trans hsize)
    have hlt : (UInt32.ofNat j).toNat < EX_MAX_HANDLE := by
      rw [hj]
      exact j.isLt
    have hentry : (⟨(UInt32.ofNat j).toNat, hlt⟩ : Fin EX_MAX_HANDLE) = j := Fin.ext hj
    rw [free_eq_ok hdone]
    refine ⟨x, ⟨hlt, ?_⟩, ?_, ?_, ?_, ?_⟩
    · rw [hentry]
      simp [Ob.setHeader, Ob.setEntry, Occurrences.store]
    · simp only [obIsValidObject, Ob.setHeader_self, hheader]
      decide
    · simp only [Ob.setHeader_self, hheader]
      rfl
    · simp only [Ob.setHeader_self, hheader]
      decide
    · simp only [Ob.setHeader_self, hheader]
      decide

/-- So has one of the file system. -/
theorem kfs_opened_fileHandle [DecidableEq π] {fat : FatFs φ} {fcb : Option φ} {call : FileCreation ω π ι}
    {j : Fin EX_MAX_HANDLE} (h : ioCreateFile (fun _ => kfsDevice fat fcb) call s = .ok (status, some j, s')) :
    ∃ x, FileHandle s'.ob call.process (UInt32.ofNat j) x := by
  obtain ⟨result, -, houtcome⟩ := ioCreateFile_outcome h
  obtain ⟨filename, mode, houtcome⟩ := houtcome.of_kfs
  exact houtcome.fileHandle

/-- A reference to an object. -/
def withReference (x : ω) (s : Ob ω π) : Ob ω π :=
  s.setHeader x { s.header x with RefCount := (s.header x).RefCount + 1 }

omit [DecidableEq ι] [DecidableEq φ] in
/-- **The file object of a handle** is found. -/
theorem referenceFileObject_eq (h : FileHandle s.ob p handle x) :
    referenceFileObject handle p s = .ok (.STATUS_SUCCESS, x, { s with ob := withReference x s.ob }) := by
  obtain ⟨hlt, hentry⟩ := h.entry
  have hlookup : ByHandle.obReferenceObjectByHandle (fun _ => none) handle p (some .OBJECT_TYPE_FILE) s.ob
      = .ok (.STATUS_SUCCESS, .object x, withReference x s.ob) := by
    rw [ByHandle.obReferenceObjectByHandle, obLookupObjectByHandle_eq hlt, kernel_ok_bind, hentry]
    simp only [if_neg (not_not_intro status_success)]
    rw [ByHandle.obReferenceObjectByPointer, ByHandle.headerOf, kernel_ok_bind, assert_of_true h.type, kernel_ok_bind,
      assert_of_true (ne_of_gt h.referenced), kernel_ok_bind, ByHandle.obReferencePointer,
      obReferenceObject_eq h.valid h.referenced]
    rfl
  rw [referenceFileObject, hlookup, kernel_ok_bind]
  dsimp only
  rw [assert_of_true status_success, kernel_ok_bind]
  rfl

/-- **The reference is dropped** while there are others. -/
theorem obDereferenceObject_shared (hvalid : obIsValidObject x s.ob = true) (hcount : 1 < (s.ob.header x).RefCount)
    (hperm : (s.ob.header x).Attributes &&& OBJ_PERMANENT = 0) :
    Io.obDereferenceObject device x memory s
      = .ok { s with ob := s.ob.setHeader x (closedHeader 0 (s.ob.header x)) } := by
  have hleft : (closedHeader 0 (s.ob.header x)).RefCount > 0 := by
    simp only [closedHeader, ne_eq, not_true_eq_false, if_false]
    omega
  rw [Io.obDereferenceObject, assert_of_true hvalid, kernel_ok_bind, Io.obCloseObject, assert_of_true (by omega),
    kernel_ok_bind, if_neg (not_not_intro hperm)]
  simp only [Ob.setHeader_self, if_pos hleft]
  rfl

/-- Dropping it leaves the object as it was. -/
theorem withReference_dropped (x : ω) (s : Ob ω π) :
    (withReference x s).setHeader x (closedHeader 0 ((withReference x s).header x)) = s := by
  have hheader : closedHeader 0 ((withReference x s).header x) = s.header x := by
    simp [withReference, closedHeader]
  rw [hheader, withReference, Ob.setHeader, Ob.setHeader]
  simp

/-! ## Drivers -/

/-- **A read or write routine** leaves the objects and the handles alone, and neither frees nor allocates its packet. -/
def TransferRoutine (routine : ι → IoSpace ω π ι φ → Kernel (Int × IoSpace ω π ι φ)) : Prop :=
  ∀ i s status t, routine i s = .ok (status, t) →
    t.ob = s.ob ∧ t.ioBlock (.irp i) = s.ioBlock (.irp i)
      ∧ ∃ events, t.log = s.log ++ events ∧ .allocated (.irp i) ∉ events ∧ .freed (.irp i) ∉ events

omit [DecidableEq ω] [DecidableEq φ] in
/-- **`KfsRead`** is such a routine, -/
theorem kfsRead_transfers (fat : FatFs φ) :
    TransferRoutine (kfsRead fat : ι → IoSpace ω π ι φ → Kernel (Int × IoSpace ω π ι φ)) := by
  intro i s status t h
  obtain ⟨_, -, h⟩ := kernel_bind_eq_ok.mp h
  obtain ⟨f, -, h⟩ := kernel_bind_eq_ok.mp h
  obtain ⟨_, -, h⟩ := kernel_bind_eq_ok.mp h
  obtain ⟨_, -, h⟩ := kernel_bind_eq_ok.mp h
  cases h
  exact ⟨rfl, rfl, [], (List.append_nil _).symm, List.not_mem_nil, List.not_mem_nil⟩

omit [DecidableEq ω] [DecidableEq φ] in
/-- and so is **`KfsWrite`**. -/
theorem kfsWrite_transfers (fat : FatFs φ) :
    TransferRoutine (kfsWrite fat : ι → IoSpace ω π ι φ → Kernel (Int × IoSpace ω π ι φ)) := by
  intro i s status t h
  obtain ⟨_, -, h⟩ := kernel_bind_eq_ok.mp h
  obtain ⟨_, -, h⟩ := kernel_bind_eq_ok.mp h
  obtain ⟨f, -, h⟩ := kernel_bind_eq_ok.mp h
  cases h
  exact ⟨rfl, rfl, [], (List.append_nil _).symm, List.not_mem_nil, List.not_mem_nil⟩

/-- **The packet for a transfer**, as the driver gets it: there is a reference to the file object, too. -/
def sentTransfer (x : ω) (majorFunction : UInt8) (buffer numberOfBytes : UInt32) (i : ι) (s : IoSpace ω π ι φ) :
    IoSpace ω π ι φ :=
  sentIrp x majorFunction IRP_MN_NULL buffer numberOfBytes (s.file x).FileOffset i
    { s with ob := withReference x s.ob }

/-- **What a transfer keeps**: the object and the handles are as before, and the packet has been allocated and freed
once, at the beginning and at the end. -/
structure TransferKeeps (x : ω) (i : ι) (s s' : IoSpace ω π ι φ) : Prop where
  refCount : (s'.ob.header x).RefCount = (s.ob.header x).RefCount
  handles : s'.ob.Handle = s.ob.Handle
  packet : s'.ioBlock (.irp i) = none
  log : ∃ driver, s'.log = s.log ++ .allocated (.irp i) :: driver ++ [.freed (.irp i)]
    ∧ .allocated (.irp i) ∉ driver ∧ .freed (.irp i) ∉ driver

/-- **An operation on a file keeps the object and gives the packet back**, if the driver returns. -/
theorem file_operation_kept (hhandle : FileHandle s.ob p handle x)
    (hdriver : ∀ d, TransferRoutine ((device d).MajorFunction majorFunction))
    (hdeliver : deliver device (s.file x).DeviceObject majorFunction i
      (sentTransfer x majorFunction buffer numberOfBytes i s) = .ok (status, t)) :
    ∃ u s', ioFileOperations device (some x) buffer numberOfBytes majorFunction IRP_MN_NULL (some i)
          { s with ob := withReference x s.ob } = .ok (status, u)
      ∧ Io.obDereferenceObject device x closeMemory u = .ok s' ∧ TransferKeeps x i s s' := by
  obtain ⟨d, -, hroutine⟩ := deliver_eq_ok hdeliver
  obtain ⟨hob, hblock, events, hlog, hallocated, hfreed⟩ := hdriver d i _ _ _ hroutine
  have htag : t.ioBlock (.irp i) = some TAG_IprI := by
    rw [hblock]
    simp [sentTransfer, sentIrp, setIrp, allocate]
  have hoperation : ioFileOperations device (some x) buffer numberOfBytes majorFunction IRP_MN_NULL (some i)
        { s with ob := withReference x s.ob }
      = .ok (status, { t with
          ioBlock := Function.update t.ioBlock (.irp i) none, log := t.log ++ [.freed (.irp i)] }) := by
    rw [ioFileOperations_eq]
    refine (congrArg (· >>= _) hdeliver).trans ?_
    rw [kernel_ok_bind]
    dsimp only
    rw [ioFreeIRP, free, if_neg (not_not_intro htag), kernel_ok_bind]
  have hreference : t.ob = withReference x s.ob := hob
  have hheader : t.ob.header x = { s.ob.header x with RefCount := (s.ob.header x).RefCount + 1 } := by
    rw [hreference, withReference, Ob.setHeader_self]
  refine ⟨_, _, hoperation, obDereferenceObject_shared ?_ ?_ ?_, ?_⟩
  · have hvalid := hhandle.valid
    rw [obIsValidObject] at hvalid ⊢
    rw [hheader]
    exact hvalid
  · have hcount := hhandle.referenced
    rw [hheader]
    dsimp only
    omega
  · rw [hheader]
    exact hhandle.temporary
  · have hback : t.ob.setHeader x (closedHeader 0 (t.ob.header x)) = s.ob := by
      rw [hreference, withReference_dropped]
    refine ⟨?_, ?_, ?_, events, ?_, hallocated, hfreed⟩
    · simp only [hback]
    · simp only [hback]
    · simp only [Function.update_self]
    · simp only [hlog]
      simp [sentTransfer, sentIrp, setIrp, allocate]

/-! ## Reading and writing -/

/-- **A packet for a transfer** has what was asked for, and the function at its current stack location. -/
structure Carries (irp : IRP ω) (x : ω) (majorFunction : UInt8) (buffer numberOfBytes : UInt32) : Prop where
  pFileObj : irp.pFileObj = x
  Buffer : irp.Buffer = buffer
  BufferSize : irp.BufferSize = numberOfBytes
  function : irp.IoStack irp.CurrentStackLocation = ⟨majorFunction, IRP_MN_NULL⟩

/-- The packet that is sent is one. -/
theorem sentTransfer_carries (x : ω) (majorFunction : UInt8) (buffer numberOfBytes : UInt32) (i : ι)
    (s : IoSpace ω π ι φ) :
    Carries ((sentTransfer x majorFunction buffer numberOfBytes i s).irp i) x majorFunction buffer numberOfBytes := by
  constructor <;> simp [sentTransfer, sentIrp, setIrp]

/-- **A transfer that is neutral**: the driver is sent one packet for it, and what it returns is what the call returns;
all else is kept. -/
structure NeutralTransfer (device : ω → DEVICE_OBJECT ω π ι φ) (majorFunction : UInt8) (x : ω)
    (buffer numberOfBytes : UInt32) (i : ι) (s : IoSpace ω π ι φ) (result : Kernel (Int × IoSpace ω π ι φ)) : Prop where
  packet : Carries ((sentTransfer x majorFunction buffer numberOfBytes i s).irp i) x majorFunction buffer numberOfBytes
  returns : ∀ status t, deliver device (s.file x).DeviceObject majorFunction i
      (sentTransfer x majorFunction buffer numberOfBytes i s) = .ok (status, t) →
    ∃ s', result = .ok (status, s') ∧ TransferKeeps x i s s'

/-- **Reading** returns what the driver returns. -/
theorem kReadFile_eq (hhandle : FileHandle s.ob p handle x)
    (hdriver : ∀ d, TransferRoutine ((device d).MajorFunction IRP_MJ_READ))
    (hdeliver : deliver device (s.file x).DeviceObject IRP_MJ_READ i
      (sentTransfer x IRP_MJ_READ buffer numberOfBytes i s) = .ok (status, t)) :
    ∃ s', kReadFile device handle buffer numberOfBytes p (some i) closeMemory s = .ok (status, s')
      ∧ TransferKeeps x i s s' := by
  obtain ⟨u, s', hoperation, hdrop, hkeeps⟩ := file_operation_kept hhandle hdriver hdeliver
  refine ⟨s', ?_, hkeeps⟩
  rw [kReadFile, referenceFileObject_eq hhandle, kernel_ok_bind]
  dsimp only
  rw [hoperation, kernel_ok_bind]
  dsimp only
  rw [hdrop]
  rfl

variable (closeMemory) in
/-- **Writing** returns a success. -/
theorem kWriteFile_eq (hhandle : FileHandle s.ob p handle x)
    (hdriver : ∀ d, TransferRoutine ((device d).MajorFunction IRP_MJ_WRITE))
    (hdeliver : deliver device (s.file x).DeviceObject IRP_MJ_WRITE i
      (sentTransfer x IRP_MJ_WRITE buffer numberOfBytes i s) = .ok (status, t)) :
    ∃ s', kWriteFile device handle buffer numberOfBytes p (some i) closeMemory s
        = .ok (KSTATUS.STATUS_SUCCESS.value, s')
      ∧ TransferKeeps x i s s' := by
  obtain ⟨u, s', hoperation, hdrop, hkeeps⟩ := file_operation_kept hhandle hdriver hdeliver
  refine ⟨s', ?_, hkeeps⟩
  rw [kWriteFile, referenceFileObject_eq hhandle, kernel_ok_bind]
  dsimp only
  rw [hoperation, kernel_ok_bind]
  dsimp only
  rw [hdrop]
  rfl

/-- **Reading is neutral, and writing is if and only if the driver returns a success.** -/
theorem file_transfer_iff (hhandle : FileHandle s.ob p handle x)
    (hread : ∀ d, TransferRoutine ((device d).MajorFunction IRP_MJ_READ))
    (hwrite : ∀ d, TransferRoutine ((device d).MajorFunction IRP_MJ_WRITE)) (buffer numberOfBytes : UInt32) (i : ι)
    (closeMemory : Option ι) :
    NeutralTransfer device IRP_MJ_READ x buffer numberOfBytes i s
        (kReadFile device handle buffer numberOfBytes p (some i) closeMemory s)
      ∧ (NeutralTransfer device IRP_MJ_WRITE x buffer numberOfBytes i s
          (kWriteFile device handle buffer numberOfBytes p (some i) closeMemory s)
        ↔ ∀ status t, deliver device (s.file x).DeviceObject IRP_MJ_WRITE i
            (sentTransfer x IRP_MJ_WRITE buffer numberOfBytes i s) = .ok (status, t) →
          status = KSTATUS.STATUS_SUCCESS.value) := by
  refine ⟨⟨sentTransfer_carries _ _ _ _ _ _, fun status t hdeliver => kReadFile_eq hhandle hread hdeliver⟩, ?_, ?_⟩
  · intro hneutral status t hdeliver
    obtain ⟨s', hreturns, -⟩ := hneutral.returns status t hdeliver
    obtain ⟨s'', hsuccess, -⟩ := kWriteFile_eq closeMemory hhandle hwrite hdeliver
    exact (Prod.mk.inj (Except.ok.inj (hreturns.symm.trans hsuccess))).1
  · intro hsuccess
    refine ⟨sentTransfer_carries _ _ _ _ _ _, fun status t hdeliver => ?_⟩
    obtain rfl := hsuccess status t hdeliver
    exact kWriteFile_eq closeMemory hhandle hwrite hdeliver

/-! ## Transfers that fail -/

/-- A process whose handle 0 is the one of an open file. -/
def openFile : IoSpace Unit Unit Nat Nat where
  ob := oneHandle
  block _ := none
  ObGlobalDirectory := none
  DeviceObject _ := none
  LinkTargetObject _ := none
  file _ := ⟨some (), O_RDWR, 0, ['x'], some 0⟩
  irp _ := ⟨0, 0, (), 0, fun _ => ⟨0, 0⟩, 0, false, ⟨0, 0⟩⟩
  ioBlock _ := none
  log := []

/-- It is a handle of this file. -/
theorem openFile_handle : FileHandle openFile.ob () 0 () := by
  refine ⟨⟨EX_MAX_HANDLE_pos, rfl⟩, ?_, rfl, ?_, ?_⟩ <;> decide

/-- A file system that answers `code` when something is written. -/
def writeAnswers (code : FRESULT) : FatFs Nat := { wellFat with f_write := fun _ _ _ => (code, 0) }

/-- A driver that reads and writes files of this file system. -/
theorem kfsDevice_transfers (fat : FatFs Nat) :
    TransferRoutine ((kfsDevice fat none : DEVICE_OBJECT Unit Unit Nat Nat).MajorFunction IRP_MJ_READ)
      ∧ TransferRoutine ((kfsDevice fat none : DEVICE_OBJECT Unit Unit Nat Nat).MajorFunction IRP_MJ_WRITE) :=
  ⟨kfsRead_transfers fat, kfsWrite_transfers fat⟩

/-- The packet in which 512 bytes are written. -/
def writtenTo (fat : FatFs Nat) : Kernel (Int × IoSpace Unit Unit Nat Nat) :=
  deliver (fun _ => kfsDevice fat none) (openFile.file ()).DeviceObject IRP_MJ_WRITE 0
    (sentTransfer () IRP_MJ_WRITE 0x1000 512 0 openFile)

/-- **Reading and writing where everything goes well** is neutral. -/
theorem file_transfer_well :
    NeutralTransfer (fun _ => kfsDevice wellFat none) IRP_MJ_READ () 0x1000 512 0 openFile
        (kReadFile (fun _ => kfsDevice wellFat none) 0 0x1000 512 () (some 0) none openFile)
      ∧ NeutralTransfer (fun _ => kfsDevice wellFat none) IRP_MJ_WRITE () 0x1000 512 0 openFile
        (kWriteFile (fun _ => kfsDevice wellFat none) 0 0x1000 512 () (some 0) none openFile) := by
  have hwritten : (writtenTo wellFat).map Prod.fst = .ok 0 := by
    decide +kernel
  have htransfer := file_transfer_iff openFile_handle (fun _ => (kfsDevice_transfers wellFat).1)
    (fun _ => (kfsDevice_transfers wellFat).2) 0x1000 512 0 none
  refine ⟨htransfer.1, htransfer.2.mpr fun status t hdeliver => ?_⟩
  have hdeliver : writtenTo wellFat = .ok (status, t) := hdeliver
  rw [hdeliver] at hwritten
  exact Except.ok.inj hwritten

/-- **A write that the file system denies** is reported as a success. -/
theorem file_transfer_fails :
    (writtenTo (writeAnswers .FR_DENIED)).map Prod.fst = .ok FRESULT.FR_DENIED.value
      ∧ (kWriteFile (fun _ => kfsDevice (writeAnswers .FR_DENIED) none) 0 0x1000 512 () (some 0) none openFile).map
          Prod.fst = .ok 0
      ∧ ¬ NeutralTransfer (fun _ => kfsDevice (writeAnswers .FR_DENIED) none) IRP_MJ_WRITE () 0x1000 512 0 openFile
          (kWriteFile (fun _ => kfsDevice (writeAnswers .FR_DENIED) none) 0 0x1000 512 () (some 0) none openFile) := by
  have hwritten : (writtenTo (writeAnswers .FR_DENIED)).map Prod.fst = .ok FRESULT.FR_DENIED.value := by
    decide +kernel
  have hreturned : (kWriteFile (fun _ => kfsDevice (writeAnswers .FR_DENIED) none) 0 0x1000 512 () (some 0) none
      openFile).map Prod.fst = .ok 0 := by
    decide +kernel
  refine ⟨hwritten, hreturned, fun hneutral => ?_⟩
  obtain ⟨⟨status, t⟩, hdeliver, hstatus⟩ := kernel_map_eq_ok.mp hwritten
  obtain ⟨s', hresult, -⟩ := hneutral.returns status t hdeliver
  rw [hresult] at hreturned
  have hzero : status = 0 := Except.ok.inj hreturned
  rw [hzero] at hstatus
  cases hstatus

end KaushOS
