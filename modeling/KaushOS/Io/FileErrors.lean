import KaushOS.Io.FileCreation

/-! # Errors of the file system (`kern/fs/kosfs.c`, `kern/io/iofile.c`, `kern/ps/process.c`)

A status of the kernel is an error if it is negative, and the codes of the FAT file system are enumerated from 0 on.
`KfsCreate` and `PspReadBinary` store such a code to a status and test it by `K_SUCCESS`.

* **`pspReadBinary`** — reading a binary, past the I/O manager.
* **`ioCreateFile_success_iff`**, **`pspReadBinary_success_iff`** — success does not depend on the codes.
* **`file_errors_reported_iff`** — when an error of the file system is reported as one. -/

namespace KaushOS

open Io

variable {ω π ι φ : Type}

/-! ## Reading a binary -/

def STATUS_INVALID_FILE_FOR_SECTION : Int := 0xC0000020 - 4294967296

/-- The tag `'ELIF'` of the buffer. -/
def TAG_ELIF : UInt32 := 0x454C4946

/-- `PspReleaseBinary(Buffer)`, on the tags of the pool. -/
def pspReleaseBinary (buffer : UInt32) (tags : UInt32 → Option UInt32) : Kernel (UInt32 → Option UInt32) :=
  if tags buffer ≠ some TAG_ELIF then
    keBugCheck " Verification Failed Status 0x%x pooltype 0x%x oldtag %s newtag %s\n"
  else .ok (Function.update tags buffer none)

/-- **`PspReadBinary(FileName, Buffer, BinarySize)`**: the status, what is stored to `*Buffer` and `*BinarySize`, and
the tags of the pool. `fp` is the `FIL` on the stack, `fsize` is its member after `f_open`, and `memory` is the block
for the buffer. -/
def pspReadBinary (fat : FatFs φ) (fp : φ) (fsize : UInt32) (fileName : List Char) (memory : Option UInt32)
    (tags : UInt32 → Option UInt32) : Kernel (Int × Option (UInt32 × Int) × (UInt32 → Option UInt32)) :=
  let status := (fat.f_open fp fileName FA_READ).value
  if ¬ success status then .ok (status, none, tags)
  else
    let fileSize := fsize.toInt32.toInt
    if fileSize ≤ 0 then .ok (STATUS_INVALID_FILE_FOR_SECTION, none, tags)
    else
      match memory with
      | none => .ok (KSTATUS.STATUS_INSUFFICIENT_RESOURCES.value, none, tags)
      | some localBuff =>
        let tags := Function.update tags localBuff (some TAG_ELIF)
        let (code, bytesRead) := fat.f_read fp localBuff fsize
        if ¬ success code.value ∨ bytesRead.toInt32.toInt < fileSize then do
          let tags ← pspReleaseBinary localBuff tags
          return (code.value, none, tags)
        else
          -- the code of `f_close` is dropped
          .ok (KSTATUS.STATUS_SUCCESS.value, some (localBuff, fileSize), tags)

/-- **The number of bytes that are asked for are read** to the buffer. -/
def ReadsAll (fat : FatFs φ) (fp : φ) (fsize : UInt32) (memory : Option UInt32) : Prop :=
  ∃ localBuff, memory = some localBuff
    ∧ fsize.toInt32.toInt ≤ (fat.f_read fp localBuff fsize).2.toInt32.toInt

/-- **The file system reports no error**, and all bytes are read. -/
def BinaryRead (fat : FatFs φ) (fp : φ) (fsize : UInt32) (fileName : List Char) (memory : Option UInt32) : Prop :=
  fat.f_open fp fileName FA_READ = .FR_OK
    ∧ ∃ localBuff, memory = some localBuff ∧ (fat.f_read fp localBuff fsize).1 = .FR_OK
      ∧ fsize.toInt32.toInt ≤ (fat.f_read fp localBuff fsize).2.toInt32.toInt

variable {fat : FatFs φ} {fp : φ} {fsize : UInt32} {fileName : List Char} {memory : Option UInt32}
  {tags : UInt32 → Option UInt32} {status : Int}

/-- The buffer can be released: it has just been allocated. -/
theorem pspReleaseBinary_update (buffer : UInt32) :
    pspReleaseBinary buffer (Function.update tags buffer (some TAG_ELIF)) = .ok (Function.update tags buffer none) := by
  simp [pspReleaseBinary]

/-- **A file that is read short** is no error either: the code of `f_read` is returned, which is a success, and
nothing is stored to `*Buffer`. -/
theorem pspReadBinary_short {localBuff : UInt32} (hsize : 0 < fsize.toInt32.toInt)
    (hshort : (fat.f_read fp localBuff fsize).2.toInt32.toInt < fsize.toInt32.toInt) :
    pspReadBinary fat fp fsize fileName (some localBuff) tags
        = .ok ((fat.f_read fp localBuff fsize).1.value, none, Function.update tags localBuff none)
      ∧ success (fat.f_read fp localBuff fsize).1.value := by
  refine ⟨?_, success_fresult _⟩
  rw [pspReadBinary]
  dsimp only
  rw [if_neg (not_not_intro (success_fresult _)), if_neg (by omega), if_pos (Or.inr hshort),
    pspReleaseBinary_update]
  rfl

/-- **A file that is not read short** is stored, whatever the codes are. -/
theorem pspReadBinary_long {localBuff : UInt32} (hsize : 0 < fsize.toInt32.toInt)
    (hlong : fsize.toInt32.toInt ≤ (fat.f_read fp localBuff fsize).2.toInt32.toInt) :
    pspReadBinary fat fp fsize fileName (some localBuff) tags
      = .ok (KSTATUS.STATUS_SUCCESS.value, some (localBuff, fsize.toInt32.toInt),
          Function.update tags localBuff (some TAG_ELIF)) := by
  have hread : ¬ (¬ success (fat.f_read fp localBuff fsize).1.value
      ∨ (fat.f_read fp localBuff fsize).2.toInt32.toInt < fsize.toInt32.toInt) := by
    rintro (hcode | hshort)
    · exact hcode (success_fresult _)
    · omega
  rw [pspReadBinary]
  dsimp only
  rw [if_neg (not_not_intro (success_fresult _)), if_neg (by omega), if_neg hread]

/-- **`PspReadBinary` returns**, and the codes do not matter for whether it succeeds with a buffer. -/
theorem pspReadBinary_success_iff (fat : FatFs φ) (fp : φ) (fsize : UInt32) (fileName : List Char)
    (memory : Option UInt32) (tags : UInt32 → Option UInt32) :
    ∃ status stored tags', pspReadBinary fat fp fsize fileName memory tags = .ok (status, stored, tags')
      ∧ (success status ∧ stored ≠ none ↔ 0 < fsize.toInt32.toInt ∧ ReadsAll fat fp fsize memory) := by
  by_cases hsize : 0 < fsize.toInt32.toInt
  · cases memory with
    | none =>
      refine ⟨KSTATUS.STATUS_INSUFFICIENT_RESOURCES.value, none, tags, ?_, iff_of_false (fun h => h.2 rfl) ?_⟩
      · rw [pspReadBinary]
        dsimp only
        rw [if_neg (not_not_intro (success_fresult _)), if_neg (by omega)]
      · rintro ⟨-, localBuff, hnone, -⟩
        cases hnone
    | some localBuff =>
      by_cases hlong : fsize.toInt32.toInt ≤ (fat.f_read fp localBuff fsize).2.toInt32.toInt
      · exact ⟨_, _, _, pspReadBinary_long hsize hlong,
          iff_of_true ⟨by decide, by simp⟩ ⟨hsize, localBuff, rfl, hlong⟩⟩
      · refine ⟨_, _, _, (pspReadBinary_short hsize (by omega)).1, iff_of_false (fun h => h.2 rfl) ?_⟩
        rintro ⟨-, b, hb, hread⟩
        cases hb
        exact hlong hread
  · refine ⟨STATUS_INVALID_FILE_FOR_SECTION, none, tags, ?_, iff_of_false (fun h => h.2 rfl) fun h => hsize h.1⟩
    rw [pspReadBinary]
    dsimp only
    rw [if_neg (not_not_intro (success_fresult _)), if_pos (by omega)]

/-! ## Opening a file -/

variable [DecidableEq ω] [DecidableEq π] [DecidableEq ι] [DecidableEq φ]

/-- **The code of `f_open`** for the path and the mode that a call of `IoCreateFile` passes to the driver. -/
def FileCreation.openCode (call : FileCreation ω π ι) (fat : FatFs φ) (fcb : φ) (s : IoSpace ω π ι φ) :
    Kernel FRESULT := do
  let result ← obGetDeviceObject call.filename call.nameBuffer none s.toDeviceSpace
  let file : FILE_OBJECT ω φ := call.file result
  let mode ← fileModeToFSMode file.FileMode
  return fat.f_open fcb file.filename mode

variable {call : FileCreation ω π ι} {s s' : IoSpace ω π ι φ} {fcb : Option φ}
  {handle : Option (Fin EX_MAX_HANDLE)}

omit [DecidableEq π] in
/-- **The status that the driver returns is that code**, if there is memory for the `FIL`. -/
theorem kfsCreate_openCode {result : DeviceResult ω} {x : ω} {i : ι} {f : φ} {t : IoSpace ω π ι φ}
    (hresult : obGetDeviceObject call.filename call.nameBuffer none s.toDeviceSpace = .ok result)
    (h : kfsCreate fat (some f) i
      (sentIrp x IRP_MJ_CREATE IRP_MN_NULL 0 0 0 i (withFile x (call.file result) s)) = .ok (status, t)) :
    ∃ code, call.openCode fat f s = .ok code ∧ status = code.value := by
  obtain ⟨mode, hmode, hdispatch⟩ := kfsCreate_eq_ok h
  have hfile : ((sentIrp x IRP_MJ_CREATE IRP_MN_NULL 0 0 0 i (withFile x (call.file result) s)).file
      ((sentIrp x IRP_MJ_CREATE IRP_MN_NULL 0 0 0 i (withFile x (call.file result) s)).irp i).pFileObj)
      = call.file result := by
    simp [sentIrp, setIrp, allocate, withFile, setFile]
  rw [hfile] at hmode hdispatch
  refine ⟨fat.f_open f (call.file result : FILE_OBJECT ω φ).filename mode, ?_, (dispatch_eq_ok rfl hdispatch).1⟩
  rw [FileCreation.openCode, hresult, kernel_ok_bind]
  dsimp only
  rw [hmode (by simp)]
  rfl

omit [DecidableEq π] in
/-- The create routine of the driver. -/
theorem kfsDevice_create (fat : FatFs φ) (fcb : Option φ) :
    (kfsDevice fat fcb : DEVICE_OBJECT ω π ι φ).MajorFunction IRP_MJ_CREATE = kfsCreate fat fcb := by
  rfl

/-- **A call that returns has succeeded** if and only if there is a packet, memory for the `FIL` and a free handle,
whatever the code of `f_open` is. -/
theorem ioCreateFile_success_iff
    (h : ioCreateFile (fun _ => kfsDevice fat fcb) call s = .ok (status, handle, s')) :
    (success status ∧ handle ≠ none
      ↔ call.irp ≠ none ∧ fcb ≠ none ∧ freeHandle (s.ob.Handle call.process) ≠ none)
    ∧ (success status → ∃ f code, fcb = some f ∧ call.openCode fat f s = .ok code) := by
  obtain ⟨result, hresult, houtcome⟩ := ioCreateFile_outcome h
  cases houtcome with
  | noIrp _ _ hirp _ =>
    refine ⟨iff_of_false (fun h => h.2 rfl) fun h => h.1 hirp, fun hsuccess => absurd hsuccess (by decide)⟩
  | createFailed _ _ _ hcreate hstatus _ =>
    refine ⟨iff_of_false (fun h => h.2 rfl) ?_, fun hsuccess => absurd hsuccess hstatus⟩
    rintro ⟨-, hfcb, -⟩
    rw [kfsDevice_create] at hcreate
    cases fcb with
    | none => exact hfcb rfl
    | some f =>
      obtain ⟨code, -, rfl⟩ := kfsCreate_openCode hresult hcreate
      exact hstatus (success_fresult code)
  | notInserted _ hcontext _ hcreate _ hfull _ =>
    refine ⟨iff_of_false (fun h => h.2 rfl) ?_, fun hsuccess => absurd hsuccess (by decide)⟩
    rintro ⟨-, -, hfree⟩
    rw [kfsDevice_create] at hcreate
    obtain ⟨mode, -, hdispatch⟩ := kfsCreate_eq_ok hcreate
    rw [dispatch_handle hcontext hdispatch] at hfull
    exact hfree hfull
  | opened _ hcontext hirp hcreate hstatus hfree _ =>
    rw [kfsDevice_create] at hcreate
    cases fcb with
    | none =>
      obtain ⟨mode, -, hdispatch⟩ := kfsCreate_eq_ok hcreate
      rw [(dispatch_eq_ok hcontext hdispatch).1] at hstatus
      exact absurd hstatus (show ¬ success KSTATUS.STATUS_INSUFFICIENT_RESOURCES.value by decide)
    | some f =>
      obtain ⟨code, hcode, -⟩ := kfsCreate_openCode hresult hcreate
      obtain ⟨mode, -, hdispatch⟩ := kfsCreate_eq_ok hcreate
      rw [dispatch_handle hcontext hdispatch] at hfree
      refine ⟨iff_of_true ⟨by decide, by simp⟩ ⟨?_, by simp, ?_⟩, fun _ => ⟨f, code, rfl, hcode⟩⟩
      · simp [hirp]
      · simp [hfree]

/-! ## Errors that are reported -/

/-- The file system has opened the file of a call. -/
def FileCreation.Opened (call : FileCreation ω π ι) (fat : FatFs φ) (fcb : Option φ) (s : IoSpace ω π ι φ) : Prop :=
  ∃ f, fcb = some f ∧ call.openCode fat f s = .ok .FR_OK

/-- **Errors of the file system are reported as errors**, by `IoCreateFile` if and only if the file has been opened
or the call fails for want of a packet, of memory or of a handle, and by `PspReadBinary` if and only if the binary
has been read without an error, or it is empty, not read to its end or finds no memory. -/
theorem file_errors_reported_iff
    (h : ioCreateFile (fun _ => kfsDevice fat fcb) call s = .ok (status, handle, s')) :
    ((success status ∧ handle ≠ none → call.Opened fat fcb s)
      ↔ call.Opened fat fcb s
        ∨ call.irp = none ∨ fcb = none ∨ freeHandle (s.ob.Handle call.process) = none)
    ∧ ∀ (fp : φ) (fsize : UInt32) (fileName : List Char) (memory : Option UInt32) (tags : UInt32 → Option UInt32),
      ∃ status stored tags', pspReadBinary fat fp fsize fileName memory tags = .ok (status, stored, tags')
        ∧ ((success status ∧ stored ≠ none → BinaryRead fat fp fsize fileName memory)
          ↔ BinaryRead fat fp fsize fileName memory
            ∨ fsize.toInt32.toInt ≤ 0 ∨ ¬ ReadsAll fat fp fsize memory) := by
  refine ⟨?_, fun fp fsize fileName memory tags => ?_⟩
  · rw [(ioCreateFile_success_iff h).1]
    tauto
  · obtain ⟨status, stored, tags', hrun, hsuccess⟩ := pspReadBinary_success_iff fat fp fsize fileName memory tags
    refine ⟨status, stored, tags', hrun, ?_⟩
    rw [hsuccess, ← not_lt]
    tauto

/-! ## A file that does not exist -/

/-- A file system without files. -/
def emptyFat : FatFs Nat where
  f_open _ _ _ := .FR_NO_FILE
  f_close _ := .FR_OK
  f_read _ _ _ := (.FR_INVALID_OBJECT, 0)
  f_write _ _ _ := (.FR_INVALID_OBJECT, 0)

/-- A file that can be opened is opened. -/
theorem file_errors_reported_wellFat : ∃ status handle s',
    ioCreateFile (fun _ => kfsDevice wellFat (some 0)) (openX (some 0)) mountedIo = .ok (status, handle, s')
      ∧ (success status ∧ handle ≠ none → (openX (some 0)).Opened wellFat (some 0) mountedIo) := by
  have hrun : (ioCreateFile (fun _ => kfsDevice wellFat (some 0)) (openX (some 0)) mountedIo).map
      (fun r => (decide (success r.1), r.2.1.isSome)) = .ok (true, true) := by
    decide +kernel
  have hcode : (openX (some 0)).openCode wellFat 0 mountedIo = .ok .FR_OK := by
    decide +kernel
  obtain ⟨⟨status, handle, s'⟩, hcall, -⟩ := kernel_map_eq_ok.mp hrun
  exact ⟨status, handle, s', hcall, (file_errors_reported_iff hcall).1.mpr (Or.inl ⟨0, rfl, hcode⟩)⟩

/-- **A file that does not exist is opened.** -/
theorem file_errors_reported_fails : ∃ status handle s',
    ioCreateFile (fun _ => kfsDevice emptyFat (some 0)) (openX (some 0)) mountedIo = .ok (status, handle, s')
      ∧ success status ∧ handle ≠ none ∧ ¬ (openX (some 0)).Opened emptyFat (some 0) mountedIo := by
  have hrun : (ioCreateFile (fun _ => kfsDevice emptyFat (some 0)) (openX (some 0)) mountedIo).map
      (fun r => (decide (success r.1), r.2.1.isSome)) = .ok (true, true) := by
    decide +kernel
  obtain ⟨⟨status, handle, s'⟩, hcall, hresult⟩ := kernel_map_eq_ok.mp hrun
  obtain ⟨hsuccess, hhandle⟩ := Prod.mk.inj hresult
  refine ⟨status, handle, s', hcall, of_decide_eq_true hsuccess, Option.ne_none_iff_isSome.mpr hhandle, ?_⟩
  rintro ⟨f, -, hcode⟩
  obtain ⟨result, -, hcode⟩ := kernel_bind_eq_ok.mp hcode
  obtain ⟨mode, -, hcode⟩ := kernel_bind_eq_ok.mp hcode
  cases hcode

end KaushOS
