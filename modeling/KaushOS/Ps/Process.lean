import KaushOS.Ke.LockRuns
import KaushOS.Mm.Ptes
import KaushOS.Ob.Handle

/-! # Processes and threads (`kern/ps/process.c`, `kern/ps/thread.c`)

A process object is kept alive by its member `RundownProtect`, which counts its threads and its
child processes. The last decrement drops the one reference to the object, and with it the process
and possibly a chain of its ancestors go.

* **`ETHREAD`, `EPROCESS`, `Ps`** — the objects, the PID table, the PTE pools.
* **`pspAllocateProcess`, `Ps.pspCreateThread`** — processes and threads come.
* **`psDecProcessRundownProtect`, `psCloseThread`** — they go.

Objects are named by their addresses; the memory of an object that has been given back keeps its
contents until it is handed out again. `Ps.log` records every use of a process object together with
whether the object is still allocated, and what is destroyed, closed and freed. Handle tables of
processes are those of `Handle.lean` (nobody opens a handle to a process or a thread); here they are
only the page that they take. The frames behind the pages do not run out, and the lists by type, the
list of active processes and the texts for debugging are left out. -/

namespace KaushOS

/-! ## Objects -/

/-- `NULL`. -/
def NULL : UInt32 := 0

/-- `THREAD_FLAG_ALLOCATED`. -/
def THREAD_FLAG_ALLOCATED : UInt32 := 0x01

/-- `THREAD_FLAG_INSERTED`. -/
def THREAD_FLAG_INSERTED : UInt32 := 0x02

/-- `THREAD_FLAG_CONTEXT_CREATED`. -/
def THREAD_FLAG_CONTEXT_CREATED : UInt32 := 0x04

/-- `PROCESS_FLAG_ALLOCATED`. -/
def PROCESS_FLAG_ALLOCATED : UInt32 := 0x01

/-- `PROCESS_FLAG_INSERTED`. -/
def PROCESS_FLAG_INSERTED : UInt32 := 0x02

/-- `PROCESS_FLAG_FIRST_THREAD_CREATED`. -/
def PROCESS_FLAG_FIRST_THREAD_CREATED : UInt32 := 0x04

/-- `PROCESS_FLAG_CLEANUP_MASK`. -/
def PROCESS_FLAG_CLEANUP_MASK : UInt32 := 0x0f

/-- `THREAD_STACK_SIZE`. -/
def THREAD_STACK_SIZE : Nat := 3

/-- `THREAD_USER_STACK_SIZE`. -/
def THREAD_USER_STACK_SIZE : Nat := 3

/-- `DEFAULT_PROCESS_QUANTUM`. -/
def DEFAULT_PROCESS_QUANTUM : Int32 := 3

/-- `ETHREAD` without the members of `KTHREAD` that the scheduler uses, behind its object header.
`SignalState` is a member of the dispatcher header of the thread, on which nobody ever waits. -/
structure ETHREAD where
  header : OBJECT_HEADER
  Flags : UInt32
  ThreadsProcess : UInt32
  KernelStack : Nat
  UserStack : Nat
  SignalState : Int

/-- `EPROCESS`, behind its object header. `UserPtePool` stands for the pointer `bits` of the bitmap
that the member points to. Neither counter ever gets near its bounds, because every thread takes
pages from the system PTEs and every process a PID. -/
structure EPROCESS (τ : Type) where
  header : OBJECT_HEADER
  ProcessLock : KSPIN_LOCK τ
  DirectoryTableBase : Nat
  UserPtePool : Nat
  Flags : UInt32
  RundownProtect : Int
  UniqueProcessId : Fin EX_MAX_HANDLE
  Parent : UInt32
  ThreadListHead : List τ
  ActiveThreads : Nat

/-- **What the routines do to process objects and to the stacks of threads.** -/
inductive PsAction (τ : Type)
  /-- The process object is read or written; `allocated` tells whether it still is one. Uses with
  nothing in between that could destroy the object are recorded once. -/
  | use (p : UInt32) (allocated : Bool)
  /-- `RundownProtect` is decremented, to the given value. -/
  | decrement (p : UInt32) (rundownProtect : Int)
  /-- The memory of the object is given back, with the given number of active threads. -/
  | destroy (p : UInt32) (activeThreads : Nat)
  /-- `PsCloseThread` is entered. -/
  | close (t : τ)
  /-- `PsCloseThread` frees the user stack. -/
  | freeUserStack (t : τ)
  /-- `PsCloseThread` frees the kernel stack. -/
  | freeKernelStack (t : τ)
  deriving DecidableEq, Repr

/-- **The state of the process manager.** `threads` and `processes` are the addresses at which
thread and process objects are allocated. `userBitmap` holds the bits of the user PTE pools, of
which `userBitmaps` have been set up, and `userMapped` the mapped pages of each process. -/
structure Ps (τ : Type) where
  ethread : τ → ETHREAD
  threads : Finset τ
  eprocess : UInt32 → EPROCESS τ
  processes : Finset UInt32
  PidTable : HandlePage UInt32
  userBitmap : Nat → BITMAP
  userBitmaps : Nat
  userMapped : UInt32 → Nat → Bool
  systemPtes : SystemPtes
  DispatcherDataBaseLock : KSPIN_LOCK τ
  log : List (PsAction τ)

variable {τ : Type} [DecidableEq τ]

/-- Store to members of a thread. -/
def Ps.modifyThread (s : Ps τ) (t : τ) (f : ETHREAD → ETHREAD) : Ps τ :=
  { s with ethread := Function.update s.ethread t (f (s.ethread t)) }

omit [DecidableEq τ] in
/-- Store to members of a process. -/
def Ps.modifyProcess (s : Ps τ) (p : UInt32) (f : EPROCESS τ → EPROCESS τ) : Ps τ :=
  { s with eprocess := Function.update s.eprocess p (f (s.eprocess p)) }

omit [DecidableEq τ] in
/-- Something is done. -/
def Ps.record (s : Ps τ) (a : PsAction τ) : Ps τ := { s with log := a :: s.log }

omit [DecidableEq τ] in
/-- The process object is used. -/
def Ps.useProcess (s : Ps τ) (p : UInt32) : Ps τ := s.record (.use p (p ∈ s.processes))

/-- The header of an object that `ObCreateObject` has created without attributes. -/
def createdHeader (type : OBJECT_TYPE_INDEX) : OBJECT_HEADER :=
  { clearedHeader with ObjectType := some type, RefCount := 1 }

/-! ## Locks -/

/-- A lock after `KeInitializeSpinLock`, and after every release. -/
def KSPIN_LOCK.free : KSPIN_LOCK τ := { Lock := 0, Thread := none, OldIrql := 0 }

/-- `KeAcquireSpinLock(SpinLock, OldIrql)` by a thread at the given IRQL. -/
def keAcquireSpinLock (irql : Nat) (current : τ) (l : KSPIN_LOCK τ) : Kernel (KSPIN_LOCK τ) := do
  keAcquireSpinLockCheck irql current l
  l.exchange irql current

/-- `KeReleaseSpinLock(&Process->pcb.ProcessLock, OldIrql)`: like the release of any lock but the
one of the dispatcher. -/
def keReleaseProcessLock (oldIrql : Nat) (current : τ) (l : KSPIN_LOCK τ) :
    Kernel (KSPIN_LOCK τ) :=
  keReleaseSpinLock .ExitThreadLock DISPATCH_LEVEL oldIrql current l

/-- `KiLockDispatcherDataBase(OldIrql)`, the part `f` that is attached to another process, and
`KiUnLockDispatcherDataBase(OldIrql)`. -/
def attached {α : Type} (irql : Nat) (current : τ) (f : Ps τ → Kernel (α × Ps τ)) (s : Ps τ) :
    Kernel (α × Ps τ) := do
  let lock ← keAcquireSpinLock irql current s.DispatcherDataBaseLock
  let (a, s) ← f { s with DispatcherDataBaseLock := lock }
  let lock ← keReleaseSpinLock .DispatcherDataBaseLock DISPATCH_LEVEL irql current
    s.DispatcherDataBaseLock
  return (a, { s with DispatcherDataBaseLock := lock })

/-! ## Dropping the reference to an object -/

/-- `ObDereferenceObject(Object)` and `ObCloseObject(Object, 0)` up to the call of
`ObRemoveObject(Object)`, with its assertions: the header afterwards, and whether the object is to
be removed. -/
def dereferenceHeader (h : OBJECT_HEADER) : Kernel (OBJECT_HEADER × Bool) := do
  assert (h.Magic = OBJECT_HEADER_MAGIC) "ObIsValidObject(Object)"
  assert (h.RefCount ≥ 1) "ObjectHeader->RefCount >= 1"
  if h.Attributes &&& OBJ_PERMANENT ≠ 0 then
    assert (h.ObjectName.Buffer ≠ none) "ObjectHeader->ObjectName.Buffer != NULL"
    return (h, false)
  else
    let h := closedHeader 0 h
    if h.RefCount > 0 then return (h, false)
    else
      assert (h.RefCount = 0) "ObjectHeader->RefCount == 0"
      assert (h.OpenHandleCount = 0) "ObjectHeader->OpenHandleCount == 0"
      assert (h.Attributes &&& OBJ_PERMANENT = 0) "(ObjectHeader->Attributes & OBJ_PERMANENT) == 0"
      return (h, true)

/-! ## The end of a process -/

omit [DecidableEq τ] in
/-- `PsIncProcessRundownProtect(Process)`. -/
def psIncProcessRundownProtect (p : UInt32) (s : Ps τ) : Ps τ :=
  (s.useProcess p).modifyProcess p fun e => { e with RundownProtect := e.RundownProtect + 1 }

omit [DecidableEq τ] in
/-- `ObRemoveHandle(Process->UniqueProcessId, &PidTable, Process)`. -/
def removePid (p : UInt32) (s : Ps τ) : Kernel (Ps τ) := do
  let handle := (s.eprocess p).UniqueProcessId
  assert (s.PidTable handle = .object p) "HandleTable->Handle[Handle].Object == Object"
  return { s with PidTable := Function.update s.PidTable handle .invalid }

omit [DecidableEq τ] in
/-- `MmDeleteProcessAddressSpace(Process->pcb.DirectoryTableBase)`: all user pages are unmapped, and
the page of the directory is freed. -/
def mmDeleteProcessAddressSpace (p : UInt32) (s : Ps τ) : Kernel (Ps τ) := do
  let s := { s with userMapped := Function.update s.userMapped p fun _ => false }
  let systemPtes ← mmFreeSystemPtes (s.eprocess p).DirectoryTableBase 1 s.systemPtes
  return { s with systemPtes }

omit [DecidableEq τ] in
/-- `PspFreeProcess(Process)`; `dec` is `PsDecProcessRundownProtect`. -/
def pspFreeProcess (dec : UInt32 → Ps τ → Kernel (Ps τ)) (p : UInt32) (s : Ps τ) :
    Kernel (Ps τ) := do
  let s := s.useProcess p
  if (s.eprocess p).Flags &&& PROCESS_FLAG_CLEANUP_MASK &&& PROCESS_FLAG_ALLOCATED ≠ 0 then
    let s ← if (s.eprocess p).Parent ≠ NULL then dec (s.eprocess p).Parent s else .ok s
    let s := s.useProcess p
    let s ← removePid p s
    mmDeleteProcessAddressSpace p s
  else return s

/-- `PspCloseProcess(Process)` on the thread `current`. -/
def pspCloseProcess (dec : UInt32 → Ps τ → Kernel (Ps τ)) (current : τ) (p : UInt32) (s : Ps τ) :
    Kernel (Ps τ) := do
  assert ((s.eprocess p).header.Magic = OBJECT_HEADER_MAGIC) "ObIsValidObject(Process)"
  assert ((s.ethread current).ThreadsProcess ≠ p) "Thread->ThreadsProcess != Process"
  assert ((s.eprocess p).RundownProtect = 0) "Process->RundownProtect == 0"
  pspFreeProcess dec p s

/-- `ObDereferenceObject(Process)`. The object is used once more after its close procedure, when it
is taken off the list of its type. -/
def obDereferenceProcess (dec : UInt32 → Ps τ → Kernel (Ps τ)) (current : τ) (p : UInt32)
    (s : Ps τ) : Kernel (Ps τ) := do
  let s := s.useProcess p
  let (header, remove) ← dereferenceHeader (s.eprocess p).header
  let s := s.modifyProcess p fun e => { e with header }
  if remove then
    let s ← pspCloseProcess dec current p s
    let s := s.useProcess p
    return { s with processes := s.processes.erase p }.record
      (.destroy p (s.eprocess p).ActiveThreads)
  else return s

/-- `PsDecProcessRundownProtect(Process)` on the thread `current`. The number bounds how many
ancestors of the process go with it. -/
def psDecProcessRundownProtect (current : τ) : Nat → UInt32 → Ps τ → Kernel (Ps τ)
  | 0, _, _ => .error .endlessLoop
  | depth + 1, p, s => do
    let s := s.useProcess p
    assert ((s.eprocess p).RundownProtect ≠ 0) "Process->RundownProtect"
    let s := s.modifyProcess p fun e => { e with RundownProtect := e.RundownProtect - 1 }
    let s := s.record (.decrement p (s.eprocess p).RundownProtect)
    if (s.eprocess p).RundownProtect = 0 then
      assert ((s.eprocess p).ActiveThreads = 0) "Process->ActiveThreads == 0"
      obDereferenceProcess (psDecProcessRundownProtect current depth) current p s
    else return s

/-! ## The end of a thread -/

/-- One of the three tests of `PsCloseThread` for a flag: it is taken back, and only the flags
`rest` may be left. -/
def takeBackFlag (flag rest flags : UInt32) (text : String) : Kernel UInt32 :=
  if flags &&& flag ≠ 0 then do
    assert (flags &&& ~~~flag = rest) text
    return flags &&& ~~~flag
  else .ok flags

/-- `PsCloseThread`, from the lock of the process on: the thread is taken off the list of its
process. -/
def removeThread (t : τ) (p : UInt32) (s : Ps τ) : Kernel (Ps τ) := do
  let flags ← takeBackFlag THREAD_FLAG_CONTEXT_CREATED
    (THREAD_FLAG_ALLOCATED ||| THREAD_FLAG_INSERTED) (s.ethread t).Flags
    "Thread->Flags == (THREAD_FLAG_ALLOCATED | THREAD_FLAG_INSERTED)"
  let inserted := flags &&& THREAD_FLAG_INSERTED ≠ 0
  let flags ← takeBackFlag THREAD_FLAG_INSERTED THREAD_FLAG_ALLOCATED flags
    "Thread->Flags == THREAD_FLAG_ALLOCATED"
  let flags ← takeBackFlag THREAD_FLAG_ALLOCATED 0 flags "Thread->Flags == 0"
  let s := s.modifyThread t fun e => { e with Flags := flags }
  return if inserted then
      s.modifyProcess p fun e => { e with ThreadListHead := e.ThreadListHead.erase t }
    else s

/-- `PsCloseThread`, attached to the process: the pages of the user stack go, but not the fourth
page that was allocated with them. -/
def freeUserStack (t : τ) (p : UInt32) (s : Ps τ) : Kernel (Unit × Ps τ) := do
  let pool := (s.eprocess p).UserPtePool
  let (bitmap, mapped) ← mmFreeUserPtes (s.ethread t).UserStack (s.userBitmap pool)
    THREAD_USER_STACK_SIZE (s.userMapped p)
  return ((), { s with
      userBitmap := Function.update s.userBitmap pool bitmap
      userMapped := Function.update s.userMapped p mapped }.record (.freeUserStack t))

omit [DecidableEq τ] in
/-- `PsCloseThread`, back in the own address space: the kernel stack goes. -/
def freeKernelStack (t : τ) (s : Ps τ) (stack : Nat) : Kernel (Ps τ) := do
  let systemPtes ← mmFreeSystemPtes stack THREAD_STACK_SIZE s.systemPtes
  return { s with systemPtes }.record (.freeKernelStack t)

/-- `PsCloseThread`, the rest: the counters of the process go down, and its lock is released. -/
def leaveProcess (current : τ) (p : UInt32) (s : Ps τ) : Kernel (Ps τ) := do
  let s := s.useProcess p
  let s := s.modifyProcess p fun e => { e with ActiveThreads := e.ActiveThreads - 1 }
  let s ← psDecProcessRundownProtect current (s.processes.card + 1) p s
  -- the process may be gone by now
  let s := s.useProcess p
  let lock ← keReleaseProcessLock DISPATCH_LEVEL current (s.eprocess p).ProcessLock
  return s.modifyProcess p fun e => { e with ProcessLock := lock }

/-- `PsCloseThread(Thread)` on the thread `current` of the process `currentProcess`, at
`DISPATCH_LEVEL`, where `Schedule` cleans up. `state` is the member `State` of the thread. -/
def psCloseThread (current : τ) (currentProcess : UInt32) (state : THREAD_STATE) (t : τ)
    (s : Ps τ) : Kernel (Ps τ) := do
  let s := s.record (.close t)
  assert (current ≠ t) "(PETHREAD)KeGetCurrentThread() != Thread"
  assert (state = .TERMINATED) "Tcb->State == THREAD_STATE_TERMINATED"
  assert ((s.ethread t).Flags &&& THREAD_FLAG_ALLOCATED ≠ 0)
    "Thread->Flags & THREAD_FLAG_ALLOCATED"
  let p := (s.ethread t).ThreadsProcess
  assert (p ≠ NULL) "Process"
  let s := s.useProcess p
  assert ((s.eprocess p).ActiveThreads ≠ 0) "Process->ActiveThreads"
  if currentProcess = p then
    keBugCheck
      "A Process is not allowed to close a thread which belongs to different Process\n"
  let lock ← keAcquireSpinLock DISPATCH_LEVEL current (s.eprocess p).ProcessLock
  let s := s.modifyProcess p fun e => { e with ProcessLock := lock }
  let s ← removeThread t p s
  let (_, s) ← attached DISPATCH_LEVEL current (freeUserStack t p) s
  let s ← freeKernelStack t s (s.ethread t).KernelStack
  leaveProcess current p s

/-- `ObDereferenceObject(Thread)`. -/
def obDereferenceThread (current : τ) (currentProcess : UInt32) (state : THREAD_STATE) (t : τ)
    (s : Ps τ) : Kernel (Ps τ) := do
  let (header, remove) ← dereferenceHeader (s.ethread t).header
  let s := s.modifyThread t fun e => { e with header }
  if remove then
    let s ← psCloseThread current currentProcess state t s
    return { s with threads := s.threads.erase t }
  else return s

/-! ## New processes -/

omit [DecidableEq τ] in
/-- `ObInsertHandle(Process, &PidTable, &ProcessId)` and `ASSERT(0)` for a full table. -/
def insertPid (p : UInt32) (s : Ps τ) : Kernel (Fin EX_MAX_HANDLE × Ps τ) :=
  match freeHandle s.PidTable with
  | some handle =>
    .ok (handle, { s with PidTable := Function.update s.PidTable handle (.object p) })
  | none => .error (.assertion "0")

omit [DecidableEq τ] in
/-- `MmAllocateSystemPtes(NumberOfPages)`, where `NULL` ends in a bugcheck. -/
def allocateSystemPtes (numberOfPages : Nat) (failure : BugCheck) (s : Ps τ) :
    Kernel (Nat × Ps τ) := do
  let (memory, systemPtes) ← mmAllocateSystemPtes numberOfPages s.systemPtes
  match memory with
  | some memory => return (memory, { s with systemPtes })
  | none => .error failure

omit [DecidableEq τ] in
/-- `MmInitializeUserPtes(&Process->pcb.UserPtePool)` behind the allocation of its page. -/
def mmInitializeUserPtes (p : UInt32) (s : Ps τ) : Ps τ :=
  { s with
    userBitmap := Function.update s.userBitmap s.userBitmaps ⟨userPteCount, fun _ => false⟩
    userBitmaps := s.userBitmaps + 1 }.modifyProcess p
      fun e => { e with UserPtePool := s.userBitmaps }

omit [DecidableEq τ] in
/-- `MmCloneUserPtes(&Process->pcb.UserPtePool, Parent->pcb.UserPtePool)` behind the allocation of
its page: the structure is copied with its pointer, which still points to the bits of the parent. -/
def mmCloneUserPtes (p parent : UInt32) (s : Ps τ) : Ps τ :=
  s.modifyProcess p fun e => { e with UserPtePool := (s.eprocess parent).UserPtePool }

omit [DecidableEq τ] in
/-- A process object whose memory has just been cleared and initialised. -/
def initialProcess (handle : Fin EX_MAX_HANDLE) (parent : UInt32) : EPROCESS τ where
  header := createdHeader .OBJECT_TYPE_PROCESS
  ProcessLock := .free
  DirectoryTableBase := 0
  UserPtePool := 0
  Flags := 0
  RundownProtect := 0
  UniqueProcessId := handle
  Parent := parent
  ThreadListHead := []
  ActiveThreads := 0

omit [DecidableEq τ] in
/-- `MmCloneProcessAddressSpace(Parent->pcb.DirectoryTableBase, PageDirectory)`, or
`ELFBinaryLoader(Process, BinData, BinSize)`. What the loader maps lies outside the area of the user
PTEs. -/
def fillAddressSpace (p parent : UInt32) (isClone : Bool) (s : Ps τ) : Kernel (Unit × Ps τ) :=
  let mapped := if isClone then s.userMapped parent else fun _ => false
  .ok ((), { s with userMapped := Function.update s.userMapped p mapped })

/-- `PspAllocateProcess(Parent, Binary, ...)` for the object at `p`, forking `Parent` if there is no
`Binary`. Every path that fails runs into a bugcheck: `ASSERT(0)` behind `ObCreateObject` and
`ObInsertHandle`, `ASSERT(Status == STATUS_SUCCESS)` behind `ObAllocateHandleTable`, and
`KeBugCheck` behind the others. -/
def pspAllocateProcess (current : τ) (p parent : UInt32) (binary : Bool) (s : Ps τ) :
    Kernel (Ps τ) := do
  let (handle, s) ← insertPid p s
  let s := { s with processes := insert p s.processes }
  let s := s.modifyProcess p fun _ => initialProcess handle parent
  let isCloneProcess : Bool := ¬ binary ∧ parent ≠ NULL
  -- the page of the handle table
  let (_, s) ← allocateSystemPtes 1 (.assertion "Status == STATUS_SUCCESS") s
  let s := if parent ≠ NULL then psIncProcessRundownProtect parent s else s
  let s := s.useProcess p
  let (directory, s) ← allocateSystemPtes 1 (.message "error:%d\n") s
  let s := s.modifyProcess p fun e => { e with DirectoryTableBase := directory }
  let (_, s) ← attached PASSIVE_LEVEL current (fillAddressSpace p parent isCloneProcess) s
  -- the page of the bitmap
  let (_, s) ← allocateSystemPtes 1 (.message "error:%d\n") s
  return if isCloneProcess then mmCloneUserPtes p parent s else mmInitializeUserPtes p s

/-! ## New threads -/

/-- `MmAllocateUserPtes(Process->pcb.UserPtePool, THREAD_USER_STACK_SIZE + 1)` in the address space
of the process, and the store to `UserStack`. -/
def allocateUserStack (t : τ) (p : UInt32) (s : Ps τ) : Kernel (Unit × Ps τ) := do
  let pool := (s.eprocess p).UserPtePool
  let (memory, bitmap, mapped) ← mmAllocateUserPtes (s.userBitmap pool)
    (THREAD_USER_STACK_SIZE + 1) (s.userMapped p)
  match memory with
  | none => keBugCheck "User Ptes exhausted!! \n"
  | some stack =>
    return ((), { s with
      userBitmap := Function.update s.userBitmap pool bitmap
      userMapped := Function.update s.userMapped p mapped }.modifyThread t
        fun e => { e with UserStack := stack })

/-- The stack that `PspAllocateThread` gives a thread in user mode: a clone has the one of the
current thread. -/
def giveUserStack (current : τ) (currentProcess : UInt32) (isClone : Bool) (t : τ) (p : UInt32)
    (s : Ps τ) : Kernel (Ps τ) :=
  if isClone then
    .ok (s.modifyThread t fun e => { e with UserStack := (s.ethread current).UserStack })
  else if currentProcess ≠ p then do
    let (_, s) ← attached DISPATCH_LEVEL current (allocateUserStack t p) s
    return s
  else do
    let (_, s) ← allocateUserStack t p s
    return s

/-- A thread object whose memory has just been cleared. `PspAllocateThread` calls
`KeInitDispatcherHeader` without a prototype and with one argument of three, so that `SignalState`
is whatever stands where the third one would be. -/
def initialThread (p : UInt32) (kernelStack : Nat) (signalState : Int) : ETHREAD where
  header := createdHeader .OBJECT_TYPE_THREAD
  Flags := 0
  ThreadsProcess := p
  KernelStack := kernelStack
  UserStack := 0
  SignalState := signalState

/-- `PspAllocateThread(Process, Thread, IsClone)` for the object at `t`. Without a kernel stack the
object is dereferenced, and `PsCloseThread` fails an assertion. -/
def pspAllocateThread (current : τ) (currentProcess : UInt32) (isClone : Bool) (signalState : Int)
    (t : τ) (p : UInt32) (s : Ps τ) : Kernel (Ps τ) := do
  let s := { s with threads := insert t s.threads }
  let (kernelStack, s) ← allocateSystemPtes THREAD_STACK_SIZE
    (.assertion "Tcb->State == THREAD_STATE_TERMINATED") s
  let s := s.modifyThread t fun _ => initialThread p kernelStack signalState
  giveUserStack current currentProcess isClone t p s

/-- `PspCreateThread(Process, ThreadName, StartRoutine, StartContext, Thread)`, as far as it does
not concern the scheduler, by a thread at `PASSIVE_LEVEL`; a clone is made when there is no
`StartRoutine`. -/
def Ps.pspCreateThread (current : τ) (currentProcess : UInt32) (isClone : Bool) (signalState : Int)
    (t : τ) (p : UInt32) (s : Ps τ) : Kernel (Ps τ) := do
  let s := s.useProcess p
  let lock ← keAcquireSpinLock PASSIVE_LEVEL current (s.eprocess p).ProcessLock
  let s := s.modifyProcess p fun e => { e with ProcessLock := lock }
  let s ← pspAllocateThread current currentProcess isClone signalState t p s
  let s := s.modifyThread t fun e => { e with
    Flags := THREAD_FLAG_ALLOCATED ||| THREAD_FLAG_INSERTED ||| THREAD_FLAG_CONTEXT_CREATED }
  let s := s.modifyProcess p fun e => { e with
    ThreadListHead := e.ThreadListHead ++ [t], ActiveThreads := e.ActiveThreads + 1 }
  let s := psIncProcessRundownProtect p s
  let lock ← keReleaseProcessLock PASSIVE_LEVEL current (s.eprocess p).ProcessLock
  return s.modifyProcess p fun e => { e with ProcessLock := lock }

omit [DecidableEq τ] in
/-- `PsCreateProcess`, between `PspAllocateProcess` and `PspCreateThread`: the flags are set. -/
def insertProcess (p : UInt32) (s : Ps τ) : Ps τ :=
  (s.useProcess p).modifyProcess p fun e => { e with
    Flags :=
      PROCESS_FLAG_ALLOCATED ||| PROCESS_FLAG_INSERTED ||| PROCESS_FLAG_FIRST_THREAD_CREATED }

/-- **How a process is made.** -/
inductive ProcessKind
  /-- `KCloneProcess`: no binary, and the current process is the parent. -/
  | fork
  /-- A binary with the given entry point; there is a parent unless no thread is current yet. -/
  | load (parent : Bool) (entryPoint : UInt32)
  deriving DecidableEq, Repr

/-- `PsCreateProcess(...)` for the process object at `p`, up to the part of its first thread `t`
that concerns the scheduler. -/
def psCreateProcess (current : τ) (currentProcess : UInt32) (kind : ProcessKind) (signalState : Int)
    (p : UInt32) (t : τ) (s : Ps τ) : Kernel (Ps τ) :=
  match kind with
  | .fork => do
    let s ← pspAllocateProcess current p currentProcess false s
    (insertProcess p s).pspCreateThread current currentProcess true signalState t p
  | .load parent entryPoint => do
    let s ← pspAllocateProcess current p (if parent then currentProcess else NULL) true s
    (insertProcess p s).pspCreateThread current currentProcess (entryPoint = NULL) signalState t p

end KaushOS
