import KaushOS.Io.KosFs
import KaushOS.Ob.DeviceSpace

/-! # What is left of a file that could not be opened (`kern/io/iofile.c`, `kern/io/io.c`)

`IoCreateFile` creates a file object, builds a packet, has the driver create the file and inserts a handle, with a
return of its own behind each of these steps. Dropping the file object closes the file by another packet.

* **`sentIrp`**, **`ioCloseFile_eq_ok`**, **`obDereferenceObject_eq_ok`** — the packet that a driver gets, and what
  closing and dropping a file does.
* **`FileOutcome`** — how `IoCreateFile` returns.
* **`failed_open_clean_iff`** — when it leaves nothing behind. -/

namespace KaushOS

open Io

variable {ω π ι φ : Type} [DecidableEq ι] [DecidableEq φ]

/-! ## A packet and its driver -/

/-- **The packet that a driver gets** when it is called with a new one. -/
def sentIrp (x : ω) (majorFunction minorFunction : UInt8) (buffer bufferSize offset : UInt32) (i : ι)
    (s : IoSpace ω π ι φ) : IoSpace ω π ι φ :=
  setIrp i
    { s.irp i with
      Buffer := buffer, BufferSize := bufferSize, pFileObj := x, Offset := offset
      IoStack := Function.update (s.irp i).IoStack 0 ⟨majorFunction, minorFunction⟩
      CurrentStackLocation := 0, Completed := false }
    (allocate (.irp i) TAG_IprI s)

variable {device : ω → DEVICE_OBJECT ω π ι φ} {s s' t t' : IoSpace ω π ι φ} {x d : ω} {i : ι} {f : φ}
  {status : Int} {memory : Option ι}

/-- The driver of a device gets a packet, unless the device has no stack location for it. -/
def deliver (device : ω → DEVICE_OBJECT ω π ι φ) (deviceObject : Option ω) (majorFunction : UInt8) (i : ι)
    (s : IoSpace ω π ι φ) : Kernel (Int × IoSpace ω π ι φ) := do
  let d ← deref deviceObject
  if (device d).StackSize ≤ 0 then
    keBugCheck "Crossed Irp stack size;  current Irp stack index %d, total stack size %d\n"
  else (device d).MajorFunction majorFunction i s

variable {majorFunction minorFunction : UInt8} {buffer bufferSize offset : UInt32} {deviceObject : Option ω}

/-- **A driver is called with a new packet.** -/
theorem ioCallDriver_eq :
    ioCallDriver device deviceObject i
        (ioBuildIrp x majorFunction minorFunction buffer bufferSize offset (some i) s).2
      = deliver device deviceObject majorFunction i
          (sentIrp x majorFunction minorFunction buffer bufferSize offset i s) := by
  have hsent : setIrp i { (ioBuildIrp x majorFunction minorFunction buffer bufferSize offset (some i) s).2.irp i with
      CurrentStackLocation :=
        ((ioBuildIrp x majorFunction minorFunction buffer bufferSize offset (some i) s).2.irp i).CurrentStackLocation
          + 1 }
      (ioBuildIrp x majorFunction minorFunction buffer bufferSize offset (some i) s).2
      = sentIrp x majorFunction minorFunction buffer bufferSize offset i s := by
    simp [ioBuildIrp, sentIrp, setIrp, allocate]
  rw [ioCallDriver]
  simp only [hsent]
  cases deviceObject with
  | none => rfl
  | some d => simp only [deliver, deref_some, kernel_ok_bind, sentIrp, setIrp, Function.update_self, ge_iff_le]

/-- **An operation on a file** sends a packet and frees it. -/
theorem ioFileOperations_eq :
    ioFileOperations device (some x) buffer bufferSize majorFunction minorFunction (some i) s
      = (deliver device (s.file x).DeviceObject majorFunction i
            (sentIrp x majorFunction minorFunction buffer bufferSize (s.file x).FileOffset i s) >>= fun r =>
          ioFreeIRP i r.2 >>= fun t => .ok (r.1, t)) := by
  rw [← ioCallDriver_eq]
  rfl

omit [DecidableEq ι] [DecidableEq φ] in
/-- A packet that has been delivered. -/
theorem deliver_eq_ok {r : Int × IoSpace ω π ι φ} (h : deliver device deviceObject majorFunction i s = .ok r) :
    ∃ d, deviceObject = some d ∧ (device d).MajorFunction majorFunction i s = .ok r := by
  cases deviceObject with
  | none => cases h
  | some d =>
    rw [deliver, deref_some, kernel_ok_bind] at h
    by_cases hsize : (device d).StackSize ≤ 0
    · rw [if_pos hsize] at h
      cases h
    · rw [if_neg hsize] at h
      exact ⟨d, rfl, h⟩

/-! ## Closing a file -/

/-- **What closing a file does to the blocks**, for the context of the file and the block for the packet. -/
inductive FileClosed (memory : Option ι) (s t : IoSpace ω π ι φ) : Option φ → Prop
  | notCreated (hblock : t.ioBlock = s.ioBlock) (hlog : t.log = s.log) : FileClosed memory s t none
  | closed {c : ι} {f : φ} (hc : memory = some c)
      (hblock : t.ioBlock = Function.update (Function.update
        (Function.update s.ioBlock (.irp c) (some TAG_IprI)) (.context f) none) (.irp c) none)
      (hlog : t.log = s.log ++ [.allocated (.irp c), .freed (.context f), .freed (.irp c)]) :
      FileClosed memory s t (some f)

variable {context : Option φ}

/-- Closing is about these blocks only. -/
theorem FileClosed.congr (h : FileClosed memory s t context) (hs : s'.ioBlock = s.ioBlock) (hs' : s'.log = s.log)
    (ht : t'.ioBlock = t.ioBlock) (ht' : t'.log = t.log) : FileClosed memory s' t' context := by
  cases h with
  | notCreated hblock hlog => exact .notCreated (by rw [ht, hs, hblock]) (by rw [ht', hs', hlog])
  | closed hc hblock hlog => exact .closed hc (by rw [ht, hs, hblock]) (by rw [ht', hs', hlog])

/-- A block that could be freed. -/
theorem free_eq_ok {b : IoBlock ι φ} {tag : UInt32} (h : free b tag s = .ok t) :
    t = { s with ioBlock := Function.update s.ioBlock b none, log := s.log ++ [.freed b] } := by
  unfold free at h
  by_cases htag : s.ioBlock b ≠ some tag
  · rw [if_pos htag] at h
    cases h
  · rw [if_neg htag] at h
    exact (Except.ok.inj h).symm

/-- **`KfsClose`**, if it returns. -/
theorem kfsClose_eq_ok {fat : FatFs φ} {r : Int × IoSpace ω π ι φ}
    (hcontext : (s.file (s.irp i).pFileObj).FsContext = some f) (h : kfsClose fat i s = .ok r) :
    r.2.toDeviceSpace = s.toDeviceSpace ∧ r.2.ioBlock = Function.update s.ioBlock (.context f) none
      ∧ r.2.log = s.log ++ [.freed (.context f)] := by
  rw [kfsClose, hcontext, deref_some, kernel_ok_bind] at h
  obtain ⟨_, -, h⟩ := kernel_bind_eq_ok.mp h
  obtain ⟨t, hfree, h⟩ := kernel_bind_eq_ok.mp h
  cases h
  rw [free_eq_ok hfree]
  exact ⟨rfl, rfl, rfl⟩

/-- **A file that has been closed**: its context is given back, and so is the packet. -/
theorem ioCloseFile_eq_ok [DecidableEq ω] {fat : FatFs φ}
    (hdevice : ∀ d, (device d).MajorFunction IRP_MJ_CLOSE = kfsClose fat)
    (h : ioCloseFile device x memory s = .ok (status, t)) :
    t.toDeviceSpace = s.toDeviceSpace ∧ FileClosed memory s t (s.file x).FsContext := by
  unfold ioCloseFile at h
  cases hcontext : (s.file x).FsContext with
  | none =>
    rw [if_pos hcontext] at h
    cases h
    exact ⟨rfl, .notCreated rfl rfl⟩
  | some f =>
    rw [if_neg (by simp [hcontext])] at h
    cases memory with
    | none =>
      obtain ⟨_, hsome, -⟩ := kernel_bind_eq_ok.mp h
      cases assert_eq_ok.mp hsome
    | some c =>
      rw [ioFileOperations_eq] at h
      obtain ⟨r, hdeliver, h⟩ := kernel_bind_eq_ok.mp h
      obtain ⟨t', hfree, h⟩ := kernel_bind_eq_ok.mp h
      obtain ⟨d, -, hclose⟩ := deliver_eq_ok hdeliver
      rw [hdevice] at hclose
      have hsent : ((sentIrp x IRP_MJ_CLOSE IRP_MN_NULL 0 0 (s.file x).FileOffset c s).file
          ((sentIrp x IRP_MJ_CLOSE IRP_MN_NULL 0 0 (s.file x).FileOffset c s).irp c).pFileObj).FsContext = some f := by
        simp [sentIrp, setIrp, allocate, hcontext]
      obtain ⟨hspace, hblock, hlog⟩ := kfsClose_eq_ok hsent hclose
      cases h
      rw [free_eq_ok hfree]
      refine ⟨hspace, .closed rfl ?_ ?_⟩
      · simp only [hblock]
        rfl
      · simp only [hlog]
        simp [sentIrp, setIrp, allocate]

/-! ## Dropping a file -/

variable [DecidableEq ω]

/-- **What dropping the only reference to a file does**: the object is given back with its block, and the file is
closed. -/
structure FileDropped (x : ω) (memory : Option ι) (s t : IoSpace ω π ι φ) : Prop where
  handle : t.ob.Handle = s.ob.Handle
  objects : t.ob.objects = s.ob.objects.erase x
  block : t.block = Function.update s.block (.header x) none
  closed : FileClosed memory s t (s.file x).FsContext

omit [DecidableEq ι] [DecidableEq φ] in
/-- A header that could be freed. -/
theorem exFreePoolWithTag_eq_ok {b : PoolBlock ω} {tag : UInt32} {o o' : Objects ω π}
    (h : Pooled.exFreePoolWithTag b tag o = .ok o') : o' = { o with block := Function.update o.block b none } := by
  unfold Pooled.exFreePoolWithTag at h
  by_cases htag : o.block b ≠ some tag
  · rw [if_pos htag] at h
    cases h
  · rw [if_neg htag] at h
    exact (Except.ok.inj h).symm

/-- **Dropping it**, if that returns. -/
theorem obDereferenceObject_eq_ok {fat : FatFs φ}
    (hdevice : ∀ d, (device d).MajorFunction IRP_MJ_CLOSE = kfsClose fat)
    (hcount : (s.ob.header x).RefCount = 1) (hperm : (s.ob.header x).Attributes &&& OBJ_PERMANENT = 0)
    (h : Io.obDereferenceObject device x memory s = .ok t) : FileDropped x memory s t := by
  obtain ⟨_, -, h⟩ := kernel_bind_eq_ok.mp h
  obtain ⟨_, -, h⟩ := kernel_bind_eq_ok.mp h
  rw [if_neg (not_not_intro hperm)] at h
  have hzero : (closedHeader 0 (s.ob.header x)).RefCount = 0 := by
    simp [closedHeader, hcount]
  simp only [Ob.setHeader_self, hzero] at h
  rw [if_neg (by decide)] at h
  obtain ⟨_, -, h⟩ := kernel_bind_eq_ok.mp h
  obtain ⟨_, -, h⟩ := kernel_bind_eq_ok.mp h
  obtain ⟨_, -, h⟩ := kernel_bind_eq_ok.mp h
  obtain ⟨⟨status, t₁⟩, hclose, h⟩ := kernel_bind_eq_ok.mp h
  obtain ⟨o, hfree, h⟩ := kernel_bind_eq_ok.mp h
  obtain ⟨hspace, hclosed⟩ := ioCloseFile_eq_ok hdevice hclose
  cases h
  rw [exFreePoolWithTag_eq_ok hfree]
  have hob : t₁.ob = s.ob.setHeader x (closedHeader 0 (s.ob.header x)) :=
    congrArg (fun s : DeviceSpace ω π => s.ob) hspace
  have hblock : t₁.block = s.block := (congrArg (fun s : DeviceSpace ω π => s.block) hspace).trans rfl
  refine ⟨?_, ?_, ?_, hclosed.congr rfl rfl rfl rfl⟩
  · simp only [hob]
    rfl
  · simp only [hob]
    rfl
  · simp only [hblock]

/-! ## Opening a file -/

/-- The state with a new file object `x`. -/
def withFile (x : ω) (file : FILE_OBJECT ω φ) (s : IoSpace ω π ι φ) : IoSpace ω π ι φ :=
  setFile x file
    { s with
      ob :=
        { s.ob.setHeader x (openedHeader .OBJECT_TYPE_FILE (some fileAttributes) clearedHeader) with
          objects := insert x s.ob.objects }
      block := Function.update s.block (.header x) (some TAG_eliF) }

omit [DecidableEq ι] [DecidableEq φ] in
/-- **A file object is created**, if there is memory for it. -/
theorem createFileObject_eq {p : π} {blocks : CreateBlocks ω} {status : KSTATUS} {object : Option ω}
    {o o' : Objects ω π} (h : Pooled.obCreateObject (fun _ => ioFileObjectType) .OBJECT_TYPE_FILE
      (some fileAttributes) p blocks o = .ok (status, object, o')) (hstatus : K_SUCCESS status) :
    ∃ x, blocks.memory = some x ∧ object = some x
      ∧ o' =
        { ob :=
            { o.ob.setHeader x (openedHeader .OBJECT_TYPE_FILE (some fileAttributes) clearedHeader) with
              objects := insert x o.ob.objects }
          block := Function.update o.block (.header x) (some TAG_eliF) } := by
  obtain ⟨_, -, h⟩ := kernel_bind_eq_ok.mp h
  cases hmemory : blocks.memory with
  | none =>
    cases h.symm.trans (createNewObject_noHeader hmemory)
    cases hstatus
  | some x =>
    cases h.symm.trans ((createNewObject_unnamed hmemory).trans (openObject_succeeds status_success))
    refine ⟨x, rfl, rfl, ?_⟩
    simp [withHeader, Ob.setHeader, ioFileObjectType]

variable [DecidableEq π]

/-- The file object that is filled in, behind what `ObGetDeviceObject` has found. -/
def FileCreation.file (call : FileCreation ω π ι) (result : DeviceResult ω) : FILE_OBJECT ω φ :=
  ⟨(call.found result).2.2, call.fileMode, 0, strncpy (call.found result).2.1 MAXPATHLEN, none⟩

/-- **How a call of `IoCreateFile` returns**, for the file object `file`; `t` is what the driver has left. -/
inductive FileOutcome (device : ω → DEVICE_OBJECT ω π ι φ) (call : FileCreation ω π ι) (s : IoSpace ω π ι φ)
    (file : FILE_OBJECT ω φ) : Int → Option (Fin EX_MAX_HANDLE) → IoSpace ω π ι φ → Prop
  | noIrp {x : ω} {s' : IoSpace ω π ι φ} (hx : call.blocks.memory = some x)
      (hcontext : file.FsContext = none) (hirp : call.irp = none)
      (hdrop : Io.obDereferenceObject device x call.closeIrp (withFile x file s) = .ok s') :
      FileOutcome device call s file KSTATUS.STATUS_INSUFFICIENT_RESOURCES.value none s'
  | createFailed {x d : ω} {i : ι} {status : Int} {t s' : IoSpace ω π ι φ}
      (hx : call.blocks.memory = some x) (hcontext : file.FsContext = none) (hirp : call.irp = some i)
      (hcreate : (device d).MajorFunction IRP_MJ_CREATE i
        (sentIrp x IRP_MJ_CREATE IRP_MN_NULL 0 0 0 i (withFile x file s)) = .ok (status, t))
      (hstatus : ¬ success status) (hdrop : Io.obDereferenceObject device x call.closeIrp t = .ok s') :
      FileOutcome device call s file status none s'
  | notInserted {x d : ω} {i : ι} {status : Int} {t s' : IoSpace ω π ι φ}
      (hx : call.blocks.memory = some x) (hcontext : file.FsContext = none) (hirp : call.irp = some i)
      (hcreate : (device d).MajorFunction IRP_MJ_CREATE i
        (sentIrp x IRP_MJ_CREATE IRP_MN_NULL 0 0 0 i (withFile x file s)) = .ok (status, t))
      (hstatus : success status) (hfull : freeHandle (t.ob.Handle call.process) = none)
      (hdrop : Io.obDereferenceObject device x call.closeIrp t = .ok s') :
      FileOutcome device call s file KSTATUS.STATUS_TOO_MANY_OPENED_FILES.value none s'
  | opened {x d : ω} {i : ι} {j : Fin EX_MAX_HANDLE} {status : Int}
      {t s' : IoSpace ω π ι φ} (hx : call.blocks.memory = some x) (hcontext : file.FsContext = none)
      (hirp : call.irp = some i)
      (hcreate : (device d).MajorFunction IRP_MJ_CREATE i
        (sentIrp x IRP_MJ_CREATE IRP_MN_NULL 0 0 0 i (withFile x file s)) = .ok (status, t))
      (hstatus : success status) (hfree : freeHandle (t.ob.Handle call.process) = some j)
      (hdone : ioFreeIRP i { t with
        ob := (t.ob.setEntry call.process j (.object x)).setHeader x
          { t.ob.header x with OpenHandleCount := (t.ob.header x).OpenHandleCount + 1 } } = .ok s') :
      FileOutcome device call s file KSTATUS.STATUS_SUCCESS.value (some j) s'

variable {call : FileCreation ω π ι} {handle : Option (Fin EX_MAX_HANDLE)}

/-- With a packet. -/
theorem createByDriver_outcome {file : FILE_OBJECT ω φ} (hx : call.blocks.memory = some x)
    (hcontext : file.FsContext = none) (hirp : call.irp = some i)
    (h : createByDriver device call deviceObject x i
      (ioBuildIrp x IRP_MJ_CREATE IRP_MN_NULL 0 0 0 (some i) (withFile x file s)).2 = .ok (status, handle, s')) :
    FileOutcome device call s file status handle s' := by
  obtain ⟨⟨status₁, t⟩, hcall, h⟩ := kernel_bind_eq_ok.mp h
  rw [ioCallDriver_eq] at hcall
  obtain ⟨d, -, hcreate⟩ := deliver_eq_ok hcall
  dsimp only at h
  by_cases hstatus : success status₁
  · rw [if_neg (not_not_intro hstatus)] at h
    obtain ⟨⟨status₂, handle₂, ob⟩, hinsert, h⟩ := kernel_bind_eq_ok.mp h
    rw [obInsertObject, obInsertHandle] at hinsert
    cases hfree : freeHandle (t.ob.Handle call.process) with
    | none =>
      rw [hfree] at hinsert
      cases hinsert
      obtain ⟨t', hdrop, h⟩ := kernel_bind_eq_ok.mp h
      cases h
      exact .notInserted hx hcontext hirp hcreate hstatus hfree hdrop
    | some j =>
      rw [hfree] at hinsert
      obtain ⟨ob', hcount, hinsert⟩ := kernel_bind_eq_ok.mp hinsert
      obtain ⟨_, -, hcount⟩ := kernel_bind_eq_ok.mp hcount
      cases hcount
      cases hinsert
      obtain ⟨t', hdone, h⟩ := kernel_bind_eq_ok.mp h
      cases h
      exact .opened hx hcontext hirp hcreate hstatus hfree hdone
  · rw [if_pos hstatus] at h
    obtain ⟨t', hdrop, h⟩ := kernel_bind_eq_ok.mp h
    cases h
    exact .createFailed hx hcontext hirp hcreate hstatus hdrop

/-- **It returns in one of these ways.** -/
theorem ioCreateFile_outcome (h : ioCreateFile device call s = .ok (status, handle, s')) :
    ∃ result, obGetDeviceObject call.filename call.nameBuffer none s.toDeviceSpace = .ok result
      ∧ FileOutcome device call s (call.file result) status handle s' := by
  obtain ⟨result, hresult, h⟩ := kernel_bind_eq_ok.mp h
  dsimp only at h
  by_cases hfound : success (call.found result).1
  · rw [if_neg (not_not_intro hfound)] at h
    obtain ⟨⟨status₂, object, objects⟩, hobject, h⟩ := kernel_bind_eq_ok.mp h
    dsimp only at h
    by_cases hcreated : K_SUCCESS status₂
    · rw [if_neg (not_not_intro hcreated)] at h
      obtain ⟨x, hx, rfl, rfl⟩ := createFileObject_eq hobject hcreated
      obtain ⟨_, -, h⟩ := kernel_bind_eq_ok.mp h
      rw [deref_some, kernel_ok_bind, createFileObject] at h
      cases hirp : call.irp with
      | none =>
        rw [hirp] at h
        obtain ⟨t, hdrop, h⟩ := kernel_bind_eq_ok.mp h
        cases h
        exact ⟨result, hresult, .noIrp hx rfl hirp hdrop⟩
      | some i =>
        rw [hirp] at h
        exact ⟨result, hresult, createByDriver_outcome hx rfl hirp h⟩
    · rw [if_pos hcreated] at h
      exact absurd h kernel_assert_false_bind
  · rw [if_pos hfound] at h
    exact absurd h kernel_assert_false_bind

/-! ## What is given back -/

/-- **The pool hands out free blocks**, also to the create routine. -/
structure FileCreation.Allowed (call : FileCreation ω π ι) (context : Option φ) (s : IoSpace ω π ι φ) :
    Prop where
  memory : ∀ x, call.blocks.memory = some x → x ∉ s.ob.objects ∧ s.block (.header x) = none
  irp : ∀ i, call.irp = some i → s.ioBlock (.irp i) = none
  closeIrp : ∀ c, call.closeIrp = some c → s.ioBlock (.irp c) = none ∧ call.irp ≠ some c
  context : ∀ f, context = some f → s.ioBlock (.context f) = none

/-- **Everything is given back** but the packet `kept`: the pool and the handle tables are as before, the file
object is gone, and what has been allocated in between has been freed once. -/
structure GivenBack (kept : Option ι) (s s' : IoSpace ω π ι φ) : Prop where
  block : s'.block = s.block
  objects : s'.ob.objects = s.ob.objects
  handle : s'.ob.Handle = s.ob.Handle
  ioBlock : ∀ c, s'.ioBlock c = if kept.map .irp = some c then some TAG_IprI else s.ioBlock c
  log : ∃ new, s'.log = s.log ++ new ∧ ∀ c, kept.map .irp ≠ some c →
    new.count (.freed c) = new.count (.allocated c) ∧ new.count (.freed c) ≤ 1

/-- **The file is open**: there is one handle more, which is the only reference to the file object, the packet has
been freed once, and no block is left but that of the file object and what the driver keeps. -/
structure OpensOne (call : FileCreation ω π ι) (context : Option φ) (handle : Option (Fin EX_MAX_HANDLE))
    (s s' : IoSpace ω π ι φ) : Prop where
  opened : ∃ x i j, call.blocks.memory = some x ∧ call.irp = some i ∧ handle = some j
    ∧ s.ob.Handle call.process j = .invalid
    ∧ s'.ob.Handle = Occurrences.store s.ob.Handle call.process j (.object x)
    ∧ s'.ob.objects = insert x s.ob.objects
    ∧ (s'.ob.header x).RefCount = 1 ∧ (s'.ob.header x).OpenHandleCount = 1
    ∧ s'.block = Function.update s.block (.header x) (some TAG_eliF)
    ∧ (∀ c, s'.ioBlock c = if context.map .context = some c then some TAG_BCF else s.ioBlock c)
    ∧ ∃ new, s'.log = s.log ++ new ∧ new.count (.freed (.irp i)) = 1

/-- The block of a context. -/
def contextBlock (context : Option φ) (ioBlock : IoBlock ι φ → Option UInt32) : IoBlock ι φ → Option UInt32 :=
  match context with
  | none => ioBlock
  | some f => Function.update ioBlock (.context f) (some TAG_BCF)

variable {b : CreateBehaviour φ} {file : FILE_OBJECT ω φ}

omit [DecidableEq π] in
/-- **What a create routine leaves**, for a new packet and a new file object. -/
theorem dispatch_eq_ok (hcontext : file.FsContext = none)
    (h : b.dispatch i (sentIrp x IRP_MJ_CREATE IRP_MN_NULL 0 0 0 i (withFile x file s)) = .ok (status, t)) :
    status = b.status ∧ t.toDeviceSpace = (withFile x file s).toDeviceSpace ∧ (t.file x).FsContext = b.context
      ∧ t.ioBlock = contextBlock b.context (Function.update s.ioBlock (.irp i) (some TAG_IprI))
      ∧ t.log = s.log ++ .allocated (.irp i) :: (b.context.map fun f => .allocated (.context f)).toList := by
  unfold CreateBehaviour.dispatch at h
  obtain ⟨bstatus, bcontext, completes⟩ := b
  cases bcontext with
  | none =>
    cases completes <;> cases h <;>
      simp [sentIrp, withFile, setFile, setIrp, allocate, ioCompleteRequest, contextBlock, hcontext]
  | some f =>
    cases completes <;> cases h <;>
      simp [sentIrp, withFile, setFile, setIrp, allocate, ioCompleteRequest, setFsContext, contextBlock]

omit [DecidableEq π] in
/-- A create routine changes no handle. -/
theorem dispatch_handle (hcontext : file.FsContext = none)
    (h : b.dispatch i (sentIrp x IRP_MJ_CREATE IRP_MN_NULL 0 0 0 i (withFile x file s)) = .ok (status, t)) :
    t.ob.Handle = s.ob.Handle :=
  (congrArg (fun s : DeviceSpace ω π => s.ob.Handle) (dispatch_eq_ok hcontext h).2.1).trans rfl

/-- The block of a packet. -/
def packetBlock (packet : Option ι) (ioBlock : IoBlock ι φ → Option UInt32) : IoBlock ι φ → Option UInt32 :=
  match packet with
  | none => ioBlock
  | some i => Function.update ioBlock (.irp i) (some TAG_IprI)

/-- A packet is a block by itself. -/
theorem packetBlock_eq (packet : Option ι) (ioBlock : IoBlock ι φ → Option UInt32) (c : IoBlock ι φ) :
    packetBlock packet ioBlock c = if packet.map .irp = some c then some TAG_IprI else ioBlock c := by
  cases packet with
  | none => rfl
  | some i =>
    by_cases hc : c = .irp i
    · subst hc
      simp [packetBlock]
    · simp [packetBlock, Function.update_of_ne hc, Ne.symm hc]

/-- What has happened to the packet and the context that are new. -/
def createLog (packet : Option ι) (context : Option φ) : List (IoEvent ι φ) :=
  (packet.map fun i => .allocated (.irp i)).toList ++ (context.map fun f => .allocated (.context f)).toList

omit [DecidableEq π] in
/-- **Dropping a new file gives everything back** but the packet that it was created with. -/
theorem FileDropped.givenBack {packet : Option ι} (h : FileDropped x call.closeIrp t s') (hcall : call.Allowed b.context s)
    (hx : call.blocks.memory = some x) (hpacket : call.irp = packet)
    (hspace : t.toDeviceSpace = (withFile x file s).toDeviceSpace)
    (hcontext : (t.file x).FsContext = none ∨ (t.file x).FsContext = b.context)
    (hblock : t.ioBlock = contextBlock (t.file x).FsContext (packetBlock packet s.ioBlock))
    (hlog : t.log = s.log ++ createLog packet (t.file x).FsContext) : GivenBack packet s s' := by
  obtain ⟨hobject, hheader⟩ := hcall.memory x hx
  have hob : t.ob = (withFile x file s).ob := congrArg (fun s : DeviceSpace ω π => s.ob) hspace
  have hpool : t.block = (withFile x file s).block := congrArg (fun s : DeviceSpace ω π => s.block) hspace
  refine ⟨?_, ?_, ?_, ?_, ?_⟩
  · rw [h.block, hpool]
    exact update_block_free hheader
  · rw [h.objects, hob]
    exact Finset.erase_insert hobject
  · rw [h.handle, hob]
    rfl
  · intro c
    rw [← packetBlock_eq]
    have hclosed := h.closed
    generalize (t.file x).FsContext = context at hclosed hblock hcontext
    cases hclosed with
    | notCreated hblock' _ => rw [hblock', hblock, contextBlock]
    | @closed p f hc hblock' _ =>
      have hf : b.context = some f := by simpa using hcontext.symm.imp Eq.symm id
      obtain ⟨hp, hne⟩ := hcall.closeIrp p hc
      have hpfree : packetBlock packet s.ioBlock (.irp p) = none := by
        rw [packetBlock_eq, if_neg, hp]
        intro h
        exact hne (hpacket.trans (by simpa using h))
      have hffree : packetBlock packet s.ioBlock (.context f) = none := by
        rw [packetBlock_eq, if_neg (by simp), hcall.context f hf]
      rw [hblock', hblock]
      simp only [contextBlock]
      by_cases hcp : c = .irp p
      · rw [hcp, Function.update_self, hpfree]
      · rw [Function.update_of_ne hcp]
        by_cases hcf : c = .context f
        · rw [hcf, Function.update_self, hffree]
        · rw [Function.update_of_ne hcf, Function.update_of_ne hcp, Function.update_of_ne hcf]
  · have hclosed := h.closed
    generalize (t.file x).FsContext = context at hclosed hlog
    cases hclosed with
    | notCreated _ hlog' =>
      refine ⟨createLog packet none, hlog'.trans hlog, fun c hc => ?_⟩
      cases packet with
      | none => simp [createLog]
      | some i =>
        have hci : ¬ IoEvent.allocated (.irp i) = IoEvent.allocated c := by simpa using hc
        simp [createLog, hci]
    | @closed p f hc' _ hlog' =>
      refine ⟨createLog packet (some f) ++ [.allocated (.irp p), .freed (.context f), .freed (.irp p)], ?_,
        fun c hc => ?_⟩
      · rw [hlog', hlog, List.append_assoc]
      · have hpacket : (createLog packet (some f)).count (.allocated c)
            = if IoBlock.context f = c then 1 else 0 := by
          cases packet with
          | none => simp [createLog, List.count_singleton]
          | some i =>
            have hci : ¬ IoBlock.irp i = c := by simpa using hc
            simp [createLog, List.count_cons, hci]
        have hnot : (createLog packet (some f)).count (.freed c) = 0 := by
          cases packet <;> simp [createLog]
        rw [List.count_append, List.count_append, hpacket, hnot]
        cases c with
        | irp j => by_cases hj : p = j <;> simp [hj]
        | context g => by_cases hg : f = g <;> simp [hg]

/-! ## The ways in which a call returns -/

variable {n : Int} {fat : FatFs φ}

omit [DecidableEq π] in
/-- The close routine of a device with any create routine. -/
theorem fileDevice_close (n : Int) (b : CreateBehaviour φ) (fat : FatFs φ) :
    (fileDevice n b fat : DEVICE_OBJECT ω π ι φ).MajorFunction IRP_MJ_CLOSE = kfsClose fat := by
  rfl

omit [DecidableEq ι] [DecidableEq φ] [DecidableEq π] in
/-- The header of a new file object. -/
theorem withFile_header : (withFile x file s).ob.header x
    = openedHeader .OBJECT_TYPE_FILE (some fileAttributes) clearedHeader :=
  Ob.setHeader_self ..

omit [DecidableEq π] in
/-- **Dropping a new file object**, if that returns. -/
theorem dropped_of_withFile (hob : t.ob = (withFile x file s).ob)
    (hdrop : Io.obDereferenceObject (fun _ => fileDevice n b fat) x memory t = .ok s') : FileDropped x memory t s' := by
  have hheader : t.ob.header x = openedHeader .OBJECT_TYPE_FILE (some fileAttributes) clearedHeader := by
    rw [hob]
    exact withFile_header
  refine obDereferenceObject_eq_ok (fun _ => fileDevice_close n b fat) ?_ ?_ hdrop
  · rw [hheader]
    rfl
  · rw [hheader]
    decide

omit [DecidableEq π] in
/-- **Dropping a file behind the create routine.** -/
theorem drop_after_create (hcall : call.Allowed b.context s) (hx : call.blocks.memory = some x)
    (hcontext : file.FsContext = none) (hirp : call.irp = some i)
    (hcreate : b.dispatch i (sentIrp x IRP_MJ_CREATE IRP_MN_NULL 0 0 0 i (withFile x file s)) = .ok (status, t))
    (hdrop : Io.obDereferenceObject (fun _ => fileDevice n b fat) x call.closeIrp t = .ok s') :
    GivenBack (some i) s s' := by
  obtain ⟨-, hspace, hfile, hblock, hlog⟩ := dispatch_eq_ok hcontext hcreate
  have hob : t.ob = (withFile x file s).ob := congrArg (fun s : DeviceSpace ω π => s.ob) hspace
  refine (dropped_of_withFile hob hdrop).givenBack hcall hx hirp hspace (Or.inr hfile) ?_ ?_
  · rw [hfile]
    exact hblock
  · rw [hfile]
    exact hlog

/-- **An error leaves nothing behind** but the packet. -/
theorem FileOutcome.givenBack (hcall : call.Allowed b.context s)
    (h : FileOutcome (fun _ => fileDevice n b fat) call s file status handle s') (hstatus : ¬ success status) :
    GivenBack call.irp s s' := by
  cases h with
  | @noIrp x s' hx hcontext hirp hdrop =>
    have hfile : ((withFile x file s).file x).FsContext = none := by
      simp [withFile, setFile, hcontext]
    rw [hirp]
    refine (dropped_of_withFile rfl hdrop).givenBack hcall hx hirp rfl (Or.inl hfile) ?_ ?_
    · rw [hfile]
      rfl
    · rw [hfile]
      exact (List.append_nil _).symm
  | createFailed hx hcontext hirp hcreate _ hdrop =>
    rw [hirp]
    exact drop_after_create hcall hx hcontext hirp hcreate hdrop
  | notInserted hx hcontext hirp hcreate _ _ hdrop =>
    rw [hirp]
    exact drop_after_create hcall hx hcontext hirp hcreate hdrop
  | opened => exact absurd (by decide) hstatus

/-- **A success leaves an open file.** -/
theorem FileOutcome.opensOne (hcall : call.Allowed b.context s)
    (h : FileOutcome (fun _ => fileDevice n b fat) call s file status handle s') (hstatus : success status) :
    OpensOne call b.context handle s s' := by
  cases h with
  | noIrp | notInserted => exact absurd hstatus (by decide)
  | createFailed _ _ _ _ hfailed _ => exact absurd hstatus hfailed
  | @opened x d i j status t s' hx hcontext hirp hcreate _ hfree hdone =>
    obtain ⟨-, hspace, -, hblock, hlog⟩ := dispatch_eq_ok hcontext hcreate
    have hob : t.ob = (withFile x file s).ob := congrArg (fun s : DeviceSpace ω π => s.ob) hspace
    have hpool : t.block = (withFile x file s).block := congrArg (fun s : DeviceSpace ω π => s.block) hspace
    have hheader : (withFile x file s).ob.header x
        = openedHeader .OBJECT_TYPE_FILE (some fileAttributes) clearedHeader := withFile_header
    have hfree' : freeHandle (s.ob.Handle call.process) = some j := by
      rw [hob] at hfree
      exact hfree
    have hinvalid : s.ob.Handle call.process j = .invalid := by
      simpa using List.find?_some hfree'
    refine ⟨x, i, j, hx, hirp, rfl, hinvalid, ?_⟩
    rw [free_eq_ok hdone]
    refine ⟨?_, ?_, ?_, ?_, ?_, fun c => ?_, ?_⟩
    · simp only [hob]
      rfl
    · simp only [hob]
      rfl
    · simp only [Ob.setHeader_self, hob, hheader]
      rfl
    · simp only [Ob.setHeader_self, hob, hheader]
      rfl
    · simp only [hpool]
      rfl
    · by_cases hci : c = .irp i
      · subst hci
        have hnone : ¬ b.context.map IoBlock.context = some (IoBlock.irp i) := by
          simp
        simp only [Function.update_self, if_neg hnone]
        exact (hcall.irp i hirp).symm
      · simp only [Function.update_of_ne hci, hblock]
        cases b.context with
        | none => simp [contextBlock, Function.update_of_ne hci]
        | some f =>
          by_cases hcf : c = .context f
          · subst hcf
            simp [contextBlock]
          · simp [contextBlock, Function.update_of_ne hcf, Function.update_of_ne hci, Ne.symm hcf]
    · refine ⟨createLog (some i) b.context ++ [.freed (.irp i)], ?_, ?_⟩
      · simp only [hlog, createLog]
        simp
      · cases b.context <;> simp [createLog]

/-- **What is left behind** in each of the ways. -/
theorem FileOutcome.clean_iff (hcall : call.Allowed b.context s)
    (houtcome : FileOutcome (fun _ => fileDevice n b fat) call s file status handle s') :
    (¬ success status → GivenBack call.irp s s')
    ∧ (((¬ success status → GivenBack none s s') ∧ (success status → OpensOne call b.context handle s s'))
      ↔ call.irp = none ∨ success b.status ∧ freeHandle (s.ob.Handle call.process) ≠ none) := by
  have hback : ¬ success status → GivenBack call.irp s s' := houtcome.givenBack hcall
  have hopens : success status → OpensOne call b.context handle s s' := houtcome.opensOne hcall
  refine ⟨hback, ?_⟩
  have hleak : ∀ i, call.irp = some i → ¬ success status → ¬ GivenBack none s s' := by
    intro i hirp hstatus hnone
    have hkept := (hback hstatus).ioBlock (.irp i)
    rw [hirp, Option.map_some, if_pos rfl, hnone.ioBlock, if_neg (by simp), hcall.irp i hirp] at hkept
    cases hkept
  cases houtcome with
  | noIrp _ _ hirp _ =>
    rw [hirp] at hback
    exact iff_of_true ⟨hback, hopens⟩ (Or.inl hirp)
  | createFailed _ hcontext hirp hcreate hstatus _ =>
    have hfailed := (dispatch_eq_ok hcontext hcreate).1
    refine iff_of_false (fun h => hleak _ hirp hstatus (h.1 hstatus)) ?_
    rintro (hnone | ⟨hsuccess, -⟩)
    · cases hirp.symm.trans hnone
    · exact hstatus (hfailed ▸ hsuccess)
  | notInserted _ hcontext hirp hcreate _ hfull _ =>
    refine iff_of_false (fun h => hleak _ hirp (by decide) (h.1 (by decide))) ?_
    rintro (hnone | ⟨-, hfree⟩)
    · cases hirp.symm.trans hnone
    · rw [dispatch_handle hcontext hcreate] at hfull
      exact hfree hfull
  | opened _ hcontext _ hcreate hstatus hfree _ =>
    have hdone := (dispatch_eq_ok hcontext hcreate).1
    refine iff_of_true ⟨fun hfailed => absurd (by decide) hfailed, hopens⟩ (Or.inr ⟨hdone ▸ hstatus, ?_⟩)
    rw [dispatch_handle hcontext hcreate] at hfree
    simp [hfree]

/-! ## The driver of the file system -/

omit [DecidableEq π] in
/-- Devices that close files alike. -/
theorem obDereferenceObject_congr {device' : ω → DEVICE_OBJECT ω π ι φ}
    (hsize : ∀ d, (device d).StackSize = (device' d).StackSize)
    (hclose : ∀ d, (device d).MajorFunction IRP_MJ_CLOSE = (device' d).MajorFunction IRP_MJ_CLOSE) :
    Io.obDereferenceObject device x memory s = Io.obDereferenceObject device' x memory s := by
  have hfile : ∀ s : IoSpace ω π ι φ, ioCloseFile device x memory s = ioCloseFile device' x memory s := by
    intro s
    unfold ioCloseFile
    cases memory with
    | none => rfl
    | some c => simp only [ioFileOperations_eq, deliver, hsize, hclose]
  simp only [Io.obDereferenceObject, Io.obCloseObject, Io.obRemoveObject, hfile]

/-- **The driver is one with a create routine of that kind.** -/
theorem FileOutcome.of_kfs {fcb : Option φ}
    (h : FileOutcome (fun _ => kfsDevice fat fcb) call s file status handle s') :
    ∃ filename mode, FileOutcome (fun _ => fileDevice 1 (kfsBehaviour fat fcb filename mode) fat) call s file
      status handle s' := by
  have hdrop : ∀ (b : CreateBehaviour φ) (x : ω) (t : IoSpace ω π ι φ),
      Io.obDereferenceObject (fun _ => kfsDevice fat fcb) x call.closeIrp t
        = Io.obDereferenceObject (fun _ => fileDevice 1 b fat) x call.closeIrp t :=
    fun b x t => obDereferenceObject_congr (fun _ => rfl) fun _ => rfl
  cases h with
  | noIrp hx hcontext hirp hdropped =>
    exact ⟨[], 0, .noIrp hx hcontext hirp (hdrop _ _ _ ▸ hdropped)⟩
  | @createFailed x d i status t s' hx hcontext hirp hcreate hstatus hdropped =>
    obtain ⟨mode, -, hdispatch⟩ := kfsCreate_eq_ok hcreate
    exact ⟨_, mode, .createFailed (d := d) hx hcontext hirp hdispatch hstatus (hdrop _ _ _ ▸ hdropped)⟩
  | @notInserted x d i status t s' hx hcontext hirp hcreate hstatus hfull hdropped =>
    obtain ⟨mode, -, hdispatch⟩ := kfsCreate_eq_ok hcreate
    exact ⟨_, mode, .notInserted (d := d) hx hcontext hirp hdispatch hstatus hfull (hdrop _ _ _ ▸ hdropped)⟩
  | @opened x d i j status t s' hx hcontext hirp hcreate hstatus hfree hdone =>
    obtain ⟨mode, -, hdispatch⟩ := kfsCreate_eq_ok hcreate
    exact ⟨_, mode, .opened (d := d) hx hcontext hirp hdispatch hstatus hfree hdone⟩

/-- **Opening a file of the driver** leaves nothing behind, or one handle, if and only if there is no packet, or
memory for the `FIL` and a free handle. -/
theorem kfs_open_clean_iff {fcb : Option φ} (hcall : call.Allowed fcb s)
    (h : ioCreateFile (fun _ => kfsDevice fat fcb) call s = .ok (status, handle, s')) :
    ((¬ success status → GivenBack none s s')
        ∧ (success status → OpensOne call fcb handle s s'))
      ↔ call.irp = none ∨ fcb ≠ none ∧ freeHandle (s.ob.Handle call.process) ≠ none := by
  obtain ⟨result, -, houtcome⟩ := ioCreateFile_outcome h
  obtain ⟨filename, mode, houtcome⟩ := houtcome.of_kfs
  have hcontext : (kfsBehaviour fat fcb filename mode).context = fcb := by
    cases fcb <;> rfl
  have hsuccess : success (kfsBehaviour fat fcb filename mode).status ↔ fcb ≠ none := by
    cases fcb with
    | none => exact iff_of_false (show ¬ success KSTATUS.STATUS_INSUFFICIENT_RESOURCES.value by decide) (by simp)
    | some f => exact iff_of_true (success_fresult _) (by simp)
  have hclean := (houtcome.clean_iff (hcontext.symm ▸ hcall)).2
  rw [hcontext, hsuccess] at hclean
  exact hclean

/-- **Opening a file that fails.** For every create routine, a call of `IoCreateFile` that returns an error gives
back everything but the packet that it has built. So it leaves nothing behind, and a call that succeeds leaves one
handle, if and only if there is no packet, or the create routine succeeds and there is a free handle. -/
theorem failed_open_clean_iff (hcall : call.Allowed b.context s)
    (h : ioCreateFile (fun _ => fileDevice n b fat) call s = .ok (status, handle, s')) :
    (¬ success status → GivenBack call.irp s s')
    ∧ (((¬ success status → GivenBack none s s') ∧ (success status → OpensOne call b.context handle s s'))
      ↔ call.irp = none ∨ success b.status ∧ freeHandle (s.ob.Handle call.process) ≠ none) := by
  obtain ⟨result, -, houtcome⟩ := ioCreateFile_outcome h
  exact houtcome.clean_iff hcall

/-! ## Files that cannot be opened -/

/-- The global directory is a mount point for a device. -/
def mountedIo : IoSpace DeviceAddress Unit Nat Nat where
  toDeviceSpace :=
    { startSpace with
      ob := { startSpace.ob with Flags := fun _ => OB_DIRECTORY_MOUNTPOINT }
      DeviceObject := fun _ => some .device }
  file _ := ⟨none, 0, 0, [], none⟩
  irp _ := ⟨0, 0, .root, 0, fun _ => ⟨0, 0⟩, 0, false, ⟨0, 0⟩⟩
  ioBlock _ := none
  log := []

/-- A file system in which everything goes well. -/
def wellFat : FatFs Nat where
  f_open _ _ _ := .FR_OK
  f_close _ := .FR_OK
  f_read _ _ n := (.FR_OK, n)
  f_write _ _ n := (.FR_OK, n)

/-- The file `x` is to be opened. -/
def openX (irp : Option Nat) : FileCreation DeviceAddress Unit Nat where
  filename := ['x']
  fileMode := O_RDONLY
  process := ()
  status := 0
  pathRemaining := []
  nameBuffer := true
  blocks := ⟨.result, some .link, none, none⟩
  irp := irp
  closeIrp := some 1

/-- The blocks are free. -/
theorem openX_allowed (irp : Option Nat) (hirp : irp ≠ some 1) (context : Option Nat) :
    (openX irp).Allowed context mountedIo := by
  refine ⟨fun x hx => ?_, fun _ _ => rfl, fun c hc => ?_, fun _ _ => rfl⟩
  · cases hx
    exact ⟨by simp [mountedIo, startSpace], rfl⟩
  · cases hc
    exact ⟨rfl, hirp⟩

/-- Without a packet the call fails, and leaves nothing behind. -/
theorem failed_open_clean_noIrp : ∃ status s',
    ioCreateFile (fun _ => fileDevice 1 ⟨0, none, false⟩ wellFat) (openX none) mountedIo = .ok (status, none, s')
      ∧ ¬ success status ∧ GivenBack none mountedIo s' := by
  have hrun : (ioCreateFile (fun _ => fileDevice 1 ⟨0, none, false⟩ wellFat) (openX none) mountedIo).map
      (fun r => (decide (success r.1), r.2.1)) = .ok (false, none) := by
    decide +kernel
  obtain ⟨⟨status, handle, s'⟩, hcall, hresult⟩ := kernel_map_eq_ok.mp hrun
  obtain ⟨hfailed, rfl⟩ := Prod.mk.inj hresult
  have hclean := (failed_open_clean_iff (openX_allowed none (by simp) none) hcall).2.mpr (Or.inl rfl)
  exact ⟨status, s', hcall, of_decide_eq_false hfailed, hclean.1 (of_decide_eq_false hfailed)⟩

/-- **Without memory for the `FIL`** the call fails, and the packet is left. -/
theorem failed_open_clean_fails : ∃ status s',
    ioCreateFile (fun _ => kfsDevice wellFat none) (openX (some 0)) mountedIo = .ok (status, none, s')
      ∧ ¬ success status ∧ s'.ioBlock (.irp 0) = some TAG_IprI ∧ ¬ GivenBack none mountedIo s' := by
  have hrun : (ioCreateFile (fun _ => kfsDevice wellFat none) (openX (some 0)) mountedIo).map
      (fun r => (decide (success r.1), r.2.1, r.2.2.ioBlock (.irp 0))) = .ok (false, none, some TAG_IprI) := by
    decide +kernel
  obtain ⟨⟨status, handle, s'⟩, hcall, hresult⟩ := kernel_map_eq_ok.mp hrun
  obtain ⟨hfailed, hresult⟩ := Prod.mk.inj hresult
  obtain ⟨rfl, hpacket⟩ := Prod.mk.inj hresult
  refine ⟨status, s', hcall, of_decide_eq_false hfailed, hpacket, fun hback => ?_⟩
  have hkept := hback.ioBlock (.irp 0)
  rw [hpacket, if_neg (by simp)] at hkept
  cases hkept

end KaushOS
