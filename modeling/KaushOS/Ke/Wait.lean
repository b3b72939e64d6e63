import KaushOS.Ke.Scheduler

/-! # Dispatcher objects and waiting (`kern/ke/wait.c`)

A dispatcher object has a signal state and a list of the wait blocks of the threads that wait for
it. A thread that waits for a single object uses its wait block `WaitBlock[0]`, so the blocks are
named by their threads.

* **`Ke`** — the scheduler with the dispatcher objects, and what each thread is in the middle of.
* **`kiDHeaderAcquire`, `kiDHeaderRelease`** — the operations that all kinds of objects share.
* **`keWaitForSingleObject`**, the mutants and the semaphores — the routines on top of them.

A thread that blocks goes on, when it gets the processor again, behind its call of
`KiBlockThread`, still inside the section that is locked: `keResume` is the rest of that section.
The lock word and the interrupt level are not part of the model. -/

namespace KaushOS

open CircularList

/-! ## Objects -/

/-- `KOBJECTS`, the kinds of kernel objects. -/
inductive KOBJECTS
  | EventNotificationObject
  | EventSynchronizationObject
  | MutantObject
  | ProcessObject
  | QueueObject
  | SemaphoreObject
  | ThreadObject
  | GateObject
  | TimerNotificationObject
  | TimerSynchronizationObject
  | Spare2Object
  | Spare3Object
  | Spare4Object
  | Spare5Object
  | Spare6Object
  | Spare7Object
  | Spare8Object
  | Spare9Object
  | ApcObject
  | DpcObject
  | DeviceQueueObject
  | EventPairObject
  | InterruptObject
  | ProfileObject
  | ThreadedDpcObject
  | MaximumKernelObject
  deriving DecidableEq, Repr

/-- `WAIT_TYPE`. -/
inductive WAIT_TYPE
  | WAIT_TYPE_ANY
  | WAIT_TYPE_ALL
  deriving DecidableEq, Repr

/-- `DISPATCHER_HEADER`. `SignalState` is a `LONG`. -/
structure DISPATCHER_HEADER (τ : Type) where
  WaitListHead : ListHead τ
  type : KOBJECTS
  SignalState : Int
  deriving DecidableEq, Repr

/-- `KWAIT_BLOCK`. -/
structure KWAIT_BLOCK (τ ο : Type) where
  Thread : Option τ
  Object : Option ο
  type : WAIT_TYPE
  WaitLink : KListEntry τ
  ThreadLink : KListEntry τ
  deriving DecidableEq, Repr

/-- The member `WaitLink` of a wait block. -/
def KWAIT_BLOCK.waitLink (τ ο : Type) : EntryField (KWAIT_BLOCK τ ο) τ where
  get := KWAIT_BLOCK.WaitLink
  set r e := { r with WaitLink := e }
  get_set _ _ := rfl
  set_set _ _ _ := rfl

/-- The member `ThreadLink` of a wait block. -/
def KWAIT_BLOCK.threadLink (τ ο : Type) : EntryField (KWAIT_BLOCK τ ο) τ where
  get := KWAIT_BLOCK.ThreadLink
  set r e := { r with ThreadLink := e }
  get_set _ _ := rfl
  set_set _ _ _ := rfl

/-- **What a thread is in the middle of**, as its kernel stack has it. -/
inductive KeControl (ο : Type)
  /-- Outside the routines of `wait.c`. -/
  | outside
  /-- In `KeWaitForSingleObject`, blocked or not yet resumed. -/
  | inWait (o : ο)
  /-- In `KeReleaseMutant`, between the store to `OwnerThread` and the locked section. -/
  | inReleaseMutant (o : ο)
  deriving DecidableEq, Repr

/-- **The kernel state of scheduler and dispatcher objects.** `waitBlock` is the member
`WaitBlock[0]` of each thread and `WaitBlockList` the member of that name; `Limit` and
`OwnerThread` are the members of semaphores and mutants. -/
structure Ke (τ ο : Type) where
  sched : Sched τ
  waitBlock : τ → KWAIT_BLOCK τ ο
  WaitBlockList : τ → ListHead τ
  header : ο → DISPATCHER_HEADER τ
  Limit : ο → Int
  OwnerThread : ο → Option τ
  control : τ → KeControl ο

variable {τ ο : Type} [DecidableEq τ] [DecidableEq ο]

/-- The links of the wait blocks on the wait lists of objects. -/
abbrev waitLinks (τ ο : Type) [DecidableEq τ] : LinkField (τ → KWAIT_BLOCK τ ο) τ :=
  (KWAIT_BLOCK.waitLink τ ο).links

/-- The links of the wait blocks on the lists of threads. -/
abbrev threadLinks (τ ο : Type) [DecidableEq τ] : LinkField (τ → KWAIT_BLOCK τ ο) τ :=
  (KWAIT_BLOCK.threadLink τ ο).links

/-- `MAX_DISPATCH_SIGNAL_STATE`. -/
def MAX_DISPATCH_SIGNAL_STATE : Int := 100

/-- Store to the header of an object. -/
def Ke.setHeader (k : Ke τ ο) (o : ο) (h : DISPATCHER_HEADER τ) : Ke τ ο :=
  { k with header := Function.update k.header o h }

/-- Store to the signal state of an object. -/
def Ke.setSignal (k : Ke τ ο) (o : ο) (x : Int) : Ke τ ο :=
  k.setHeader o { k.header o with SignalState := x }

/-- Store to the wait list head of an object, together with the links of the wait blocks. -/
def Ke.setWaitList (k : Ke τ ο) (o : ο) (head : ListHead τ) (blocks : τ → KWAIT_BLOCK τ ο) :
    Ke τ ο :=
  { k with waitBlock := blocks }.setHeader o { k.header o with WaitListHead := head }

/-- Record what a thread is in the middle of. -/
def Ke.setControl (k : Ke τ ο) (t : τ) (c : KeControl ο) : Ke τ ο :=
  { k with control := Function.update k.control t c }

/-! ## What all objects share -/

/-- `KiInitWaitBlock(WaitBlock, Object)` for the first wait block of the current thread. -/
def kiInitWaitBlock (o : ο) (k : Ke τ ο) : Ke τ ο :=
  let thread := k.sched.CurrentThread
  { k with
    waitBlock := Function.update k.waitBlock thread
      { Thread := some thread
        Object := some o
        type := .WAIT_TYPE_ANY
        ThreadLink := ⟨none, none⟩
        WaitLink := ⟨none, none⟩ } }

/-- `KeInitDispatcherHeader(Dispatcher, Type, SignalState)`. -/
def keInitDispatcherHeader (o : ο) (type : KOBJECTS) (signalState : Int) (k : Ke τ ο) : Ke τ ο :=
  k.setHeader o { SignalState := signalState, type, WaitListHead := listInit }

/-- **How a wait ends**, as far as the locked section goes. -/
inductive WaitOutcome
  /-- The wait was satisfied at once. -/
  | acquired
  /-- The thread is on the wait list and another thread runs. -/
  | blocked
  deriving DecidableEq, Repr

/-- `KiDHeaderAcquire(Dispatcher)`. The condition under which the signal state is decremented is a
disjunction of nonzero constants, so it is decremented for objects of every type. -/
def kiDHeaderAcquire (o : ο) (k : Ke τ ο) : Kernel (WaitOutcome × Ke τ ο) := do
  if (k.header o).SignalState = 0 then
    let thread := k.sched.CurrentThread
    let k := kiInitWaitBlock o k
    let (head, blocks) ← listInsertTail (waitLinks τ ο) (k.header o).WaitListHead thread k.waitBlock
    let k := k.setWaitList o head blocks
    let k := k.setControl thread (.inWait o)
    let sched ← kiBlockThread k.sched
    return (.blocked, { k with sched })
  else
    assert ((k.header o).SignalState > 0) "Dispatcher->SignalState > 0"
    return (.acquired, k.setSignal o ((k.header o).SignalState - 1))

/-- The loop that takes a wait block off the lists of all objects, for a thread that waits for
any one of several. As in the source, the block that is removed stays the same in all rounds. -/
def waitAnyLoop (thread block : τ) : Nat → Ke τ ο → Kernel (Ke τ ο)
  | 0, k => if listEmpty (k.WaitBlockList thread) then .ok k else .error .endlessLoop
  | n + 1, k =>
    if listEmpty (k.WaitBlockList thread) then .ok k
    else do
      let (head, blocks) ← listRemove (threadLinks τ ο) (k.WaitBlockList thread) block k.waitBlock
      let k := { k with
        waitBlock := blocks, WaitBlockList := Function.update k.WaitBlockList thread head }
      let object ← deref (k.waitBlock block).Object
      let (head, blocks) ←
        listRemove (waitLinks τ ο) (k.header object).WaitListHead block k.waitBlock
      waitAnyLoop thread block n (k.setWaitList object head blocks)

/-- The release of a thread that has a list of wait blocks: no thread of this kernel has one, as
nothing is ever inserted into `WaitBlockList`. -/
def releaseMultiple (thread block : τ) (k : Ke τ ο) : Kernel (Ke τ ο) := do
  let (head, blocks) ← listRemove (threadLinks τ ο) (k.WaitBlockList thread) block k.waitBlock
  let k := { k with
    waitBlock := blocks, WaitBlockList := Function.update k.WaitBlockList thread head }
  if (k.waitBlock block).type = .WAIT_TYPE_ANY then
    waitAnyLoop thread block (k.WaitBlockList thread).NumberOfElements k
  else
    return k

/-- `KiDHeaderRelease(Dispatcher)`; the first component is the thread that the object is handed
to, `none` when the signal state is incremented instead. -/
def kiDHeaderRelease (o : ο) (k : Ke τ ο) : Kernel (Option τ × Ke τ ο) := do
  assert ((k.header o).SignalState < MAX_DISPATCH_SIGNAL_STATE)
    "Dispatcher->SignalState < MAX_DISPATCH_SIGNAL_STATE"
  assert ((k.header o).SignalState = 0 ∨ listEmpty (k.header o).WaitListHead = true)
    "(Dispatcher->SignalState == 0) || (LIST_EMPTY(&Dispatcher->WaitListHead))"
  if listEmpty (k.header o).WaitListHead then
    return (none, k.setSignal o ((k.header o).SignalState + 1))
  else
    let (block, head, blocks) ←
      listRemoveHead (waitLinks τ ο) (k.header o).WaitListHead k.waitBlock
    let k := k.setWaitList o head blocks
    let block ← deref block
    assert ((k.waitBlock block).Object = some o) "WaitBlock->Object == Dispatcher"
    let thread ← deref (k.waitBlock block).Thread
    if listEmpty (k.WaitBlockList thread) then
      let sched ← kiReadyThread thread k.sched
      return (some thread, { k with sched })
    else
      let k ← releaseMultiple thread block k
      return (some thread, k)

/-! ## Waiting -/

/-- `KeWaitForSingleObject(Object, ...)`, up to the switch of threads when the wait blocks. -/
def keWaitForSingleObject (o : ο) (k : Ke τ ο) : Kernel (WaitOutcome × Ke τ ο) :=
  match (k.header o).type with
  | .MutantObject => do
    assert (k.OwnerThread o ≠ some k.sched.CurrentThread)
      "Mutant->OwnerThread != KeGetCurrentThread()"
    if (k.header o).SignalState = 0 then
      assert False "0"
    let (outcome, k) ← kiDHeaderAcquire o k
    match outcome with
    | .acquired =>
      return (.acquired,
        { k with OwnerThread := Function.update k.OwnerThread o (some k.sched.CurrentThread) })
    | .blocked => return (.blocked, k)
  | .ThreadObject | .ProcessObject | .SemaphoreObject | .EventNotificationObject
  | .EventSynchronizationObject => kiDHeaderAcquire o k
  | _ => keBugCheck "Not Yet Implemented\n"

/-- **What a thread does first when it gets the processor back**: if it was blocked in
`KeWaitForSingleObject`, it takes the ownership of a mutant and leaves the routine. -/
def keResume (k : Ke τ ο) : Ke τ ο :=
  let thread := k.sched.CurrentThread
  match k.control thread with
  | .inWait o =>
    let k := k.setControl thread .outside
    if (k.header o).type = .MutantObject then
      { k with OwnerThread := Function.update k.OwnerThread o (some thread) }
    else k
  | _ => k

/-! ## Mutants -/

/-- `KeInitializeMutant(Mutant, InitialOwner)`. -/
def keInitializeMutant (o : ο) (initialOwner : Bool) (k : Ke τ ο) : Ke τ ο :=
  if initialOwner = false then
    let k := keInitDispatcherHeader o .MutantObject 1 k
    { k with OwnerThread := Function.update k.OwnerThread o none }
  else
    let k := keInitDispatcherHeader o .MutantObject 0 k
    { k with OwnerThread := Function.update k.OwnerThread o (some k.sched.CurrentThread) }

/-- `KeReleaseMutant(Mutant, ...)`, the part in front of the locked section. -/
def keReleaseMutantBegin (o : ο) (k : Ke τ ο) : Kernel (Ke τ ο) := do
  assert (k.OwnerThread o = some k.sched.CurrentThread)
    "Mutant->OwnerThread == KeGetCurrentThread()"
  let k := { k with OwnerThread := Function.update k.OwnerThread o none }
  return k.setControl k.sched.CurrentThread (.inReleaseMutant o)

/-- `KeReleaseMutant(Mutant, ...)`, the locked section. -/
def keReleaseMutantLocked (o : ο) (k : Ke τ ο) : Kernel (Option τ × Ke τ ο) := do
  let (thread, k) ← kiDHeaderRelease o k
  return (thread, k.setControl k.sched.CurrentThread .outside)

/-! ## Semaphores -/

/-- `KeInitializeSemaphore(Semaphore, Count, Limit)`. -/
def keInitializeSemaphore (o : ο) (count limit : Int) (k : Ke τ ο) : Kernel (Ke τ ο) := do
  assert (count ≤ limit) "Count <= Limit"
  let k := keInitDispatcherHeader o .SemaphoreObject count k
  return { k with Limit := Function.update k.Limit o limit }

/-- `KeReleaseSemaphore(Semaphore, Increment, Adjustment, Wait)`; the components are the value
returned, the thread that the unit is handed to, and the new state. -/
def keReleaseSemaphore (o : ο) (increment : Nat) (adjustment : Int) (k : Ke τ ο) :
    Kernel (Int × Option τ × Ke τ ο) := do
  assert ((k.header o).SignalState < k.Limit o)
    "Semaphore->Header.SignalState < Semaphore->Limit"
  assert (increment = 0) "Increment == 0"
  assert (adjustment = 1) "Adjustment == 1"
  let oldState := (k.header o).SignalState
  let (thread, k) ← kiDHeaderRelease o k
  return (oldState, thread, k)

end KaushOS
