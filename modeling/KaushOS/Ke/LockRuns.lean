import KaushOS.Hal.Irql
import KaushOS.Ke.SchedulerRuns
import KaushOS.Ke.Wait

/-! # The dispatcher database lock across context switches (`kern/ke/locks.c`)

`Schedule` and `KeWaitForSingleObject` take the dispatcher database lock on the stack of one thread,
and the lock is dropped on the stack of whatever thread runs next. This file cuts the routines at
every point where an interrupt or a DPC may come in between, and gives each thread its own stack:

* **`KSPIN_LOCK`** — the lock word, the thread that took the lock, and the IRQL it came from.
* **`LockOp`, `LockCall`, `LockFrame`** — the single steps, the routines, and a routine on its way.
* **`LockMachine.exec`** — what the steps do. The scheduler and the dispatcher objects are those of
  `Scheduler.lean` and `Wait.lean`.
* **`lockSystem`** — the runs, with interrupts wherever the IRQL lets them in.

Device interrupts at `DISPATCH_LEVEL` and above come back to the level at which they came in without
looking at the DPC queue, so they are not events. The mask registers are those of `Irql.lean` and
not repeated here. -/

namespace KaushOS

open CircularList Transition

/-! ## Spin locks -/

/-- `KSPIN_LOCK`. -/
structure KSPIN_LOCK (τ : Type) where
  Lock : Nat
  Thread : Option τ
  OldIrql : Nat
  deriving DecidableEq, Repr

/-- The global spin locks of the scheduler. -/
inductive SpinLockName
  | DispatcherDataBaseLock
  | ExitThreadLock
  deriving DecidableEq, Repr

variable {τ ο : Type} [DecidableEq τ] [DecidableEq ο]

/-- The assertions of `KeAcquireSpinLock(SpinLock, OldIrql)`. -/
def keAcquireSpinLockCheck (irql : Nat) (current : τ) (l : KSPIN_LOCK τ) : Kernel Unit := do
  assert (irql ≤ DISPATCH_LEVEL) "KeGetCurrentIrql() <= DISPATCH_LEVEL"
  if l.Thread ≠ none then
    assert (l.Thread ≠ some current) "SpinLock->Thread != DThread"

/-- The loop of `InterlockedExchange` and the stores behind it. On the one processor there is nobody
else to reset the lock word, so the loop never ends once it finds it set. -/
def KSPIN_LOCK.exchange (old : Nat) (current : τ) (l : KSPIN_LOCK τ) : Kernel (KSPIN_LOCK τ) :=
  if l.Lock = 0 then .ok { Lock := 1, Thread := some current, OldIrql := old }
  else .error .endlessLoop

/-- `InterlockedExchange(&SpinLock->Lock, 0)`, `ASSERT1(Result == 1, Result)` and the stores behind
them. -/
def KSPIN_LOCK.reset (l : KSPIN_LOCK τ) : Kernel (KSPIN_LOCK τ) := do
  assert (l.Lock = 1) "Result == 1"
  return { Lock := 0, Thread := none, OldIrql := 0 }

/-- `KeReleaseSpinLock(SpinLock, OldIrql)`, up to its call of `KeLowerIrql`. -/
def keReleaseSpinLock (name : SpinLockName) (irql old : Nat) (current : τ) (l : KSPIN_LOCK τ) :
    Kernel (KSPIN_LOCK τ) := do
  assert (irql = DISPATCH_LEVEL) "DIRQL == DISPATCH_LEVEL"
  -- the lock of the dispatcher may come from another thread and another IRQL
  if name ≠ .DispatcherDataBaseLock then
    assert (l.OldIrql = old) "SpinLock->OldIrql == OldIrql"
    assert (l.Thread = some current) "SpinLock->Thread == DThread"
  l.reset

/-- `KeAcquireSpinLockAtDpcLevel(SpinLock)`. -/
def keAcquireSpinLockAtDpcLevel (irql : Nat) (current : τ) (l : KSPIN_LOCK τ) :
    Kernel (KSPIN_LOCK τ) := do
  assert (irql ≥ DISPATCH_LEVEL) "DIrql >= DISPATCH_LEVEL"
  if l.Thread ≠ none then
    assert (l.Thread ≠ some current) "SpinLock->Thread != DThread"
  l.exchange DISPATCH_LEVEL current

/-- `KeReleaseSpinLockFromDpcLevel(SpinLock)`. -/
def keReleaseSpinLockFromDpcLevel (irql : Nat) (current : τ) (l : KSPIN_LOCK τ) :
    Kernel (KSPIN_LOCK τ) := do
  assert (irql ≥ DISPATCH_LEVEL) "DIrql >= DISPATCH_LEVEL"
  assert (l.Thread = some current) "SpinLock->Thread == DThread"
  l.reset

/-! ## Releasing all waiters -/

/-- The loop of `KiDHeaderReleaseAll(Dispatcher)`. -/
def releaseAllLoop (o : ο) : Nat → Ke τ ο → Kernel (Ke τ ο)
  | 0, k => if listEmpty (k.header o).WaitListHead then .ok k else .error .endlessLoop
  | n + 1, k =>
    if listEmpty (k.header o).WaitListHead then .ok k
    else do
      let (block, head, blocks) ←
        listRemoveHead (waitLinks τ ο) (k.header o).WaitListHead k.waitBlock
      let k := k.setWaitList o head blocks
      let block ← deref block
      assert ((k.waitBlock block).Object = some o) "WaitBlock->Object == Dispatcher"
      let thread ← deref (k.waitBlock block).Thread
      -- unlike `KiDHeaderRelease`, this routine readies a thread that waited for any object
      let any := (k.waitBlock block).type = .WAIT_TYPE_ANY
      let single := listEmpty (k.WaitBlockList thread)
      let k ← if single then .ok k else releaseMultiple thread block k
      if single = true ∨ any then
        let sched ← kiReadyThread thread k.sched
        releaseAllLoop o n { k with sched }
      else releaseAllLoop o n k

/-- `KiDHeaderReleaseAll(Dispatcher)`. -/
def kiDHeaderReleaseAll (o : ο) (k : Ke τ ο) : Kernel (Ke τ ο) := do
  assert ((k.header o).SignalState < MAX_DISPATCH_SIGNAL_STATE)
    "Dispatcher->SignalState < MAX_DISPATCH_SIGNAL_STATE"
  assert ((k.header o).SignalState = 0 ∨ listEmpty (k.header o).WaitListHead = true)
    "(Dispatcher->SignalState == 0) || (LIST_EMPTY(&Dispatcher->WaitListHead))"
  let k ← releaseAllLoop o (k.header o).WaitListHead.NumberOfElements k
  return k.setSignal o 1

/-! ## Steps, routines and frames -/

/-- What a routine does in front of its locked section. -/
inductive Prelude (ο : Type)
  /-- `KeWaitForSingleObject`: `ASSERT(KeGetCurrentIrql() <= APC_LEVEL)`. -/
  | waitCheck
  /-- `KeReleaseSemaphore`: the assertions. -/
  | semaphoreCheck (o : ο) (increment : Nat) (adjustment : Int)
  /-- `KeReleaseMutant`: the assertion and the store to `OwnerThread`. -/
  | mutantBegin (o : ο)
  /-- `PsExitThread` of the current thread: the store to `State`. -/
  | terminate
  deriving DecidableEq

/-- **The locked sections**, from the acquisition to the release or the switch of threads. -/
inductive LockedBody (τ ο : Type)
  /-- `Schedule`. -/
  | schedule
  /-- `KeWaitForSingleObject`. -/
  | wait (o : ο)
  /-- `KeReleaseSemaphore`: `KiDHeaderRelease`. -/
  | release (o : ο)
  /-- `KeReleaseMutant`: `KiDHeaderRelease`. -/
  | releaseMutant (o : ο)
  /-- `KeReleaseNotificationDHeader` of the current thread: `KiDHeaderReleaseAll`. -/
  | releaseAll
  /-- `PspCreateThread`: `KiReadyThread`. -/
  | ready (t : τ) (basePriority : Nat) (process : UInt32)
  /-- `PspAllocateThread` and `PsCloseThread`, attached to another process. -/
  | attach
  deriving DecidableEq

/-- **The routines.** -/
inductive LockCall (τ ο : Type)
  | schedule
  | waitForSingleObject (o : ο)
  | releaseSemaphore (o : ο) (increment : Nat) (adjustment : Int)
  | releaseMutant (o : ο)
  /-- `PsExitThread` of the current thread. -/
  | exitThread
  /-- `PspCreateThread` of the thread `t`. -/
  | createThread (t : τ) (basePriority : Nat) (process : UInt32)
  /-- The part of `PspAllocateThread` and `PsCloseThread` that is attached to another process. -/
  | attachProcess
  /-- `PsExitThread` of a terminated thread, which may close it. -/
  | exitOther
  /-- A stretch at a raised IRQL. -/
  | raised (target : Nat)
  /-- A DPC routine. -/
  | dpcRoutine
  deriving DecidableEq

/-- The IRQL that `KeReleaseSpinLock` is called with. -/
inductive UnlockTo
  /-- The local variable `OldIrql`. -/
  | oldIrql
  /-- `CurrentThread->WaitIrql`. -/
  | waitIrql
  /-- `PASSIVE_LEVEL`. -/
  | passive
  deriving DecidableEq, Repr

/-- **The single steps.** -/
inductive LockOp (τ ο : Type)
  /-- Kernel code that may call the routines. -/
  | work
  /-- `StartRoutine(StartContext)` is entered. -/
  | startRoutine
  /-- A call. -/
  | call (routine : LockCall τ ο)
  /-- `KeBugCheck("Should Never Return here\n")` and its like. -/
  | shouldNotReturn
  /-- What comes in front of the locked section. -/
  | begin (p : Prelude ο)
  /-- `KeAcquireSpinLock`: the assertions. -/
  | check (name : SpinLockName)
  /-- `KeRaiseIrql`: `CurrentIrql` is read. -/
  | readIrql
  /-- `KeRaiseIrql`: the assertions and the store of the new IRQL. -/
  | raiseIrql (target : Nat)
  /-- `KeAcquireSpinLock`: the exchange. -/
  | exchange (name : SpinLockName)
  /-- `KeAcquireSpinLockAtDpcLevel(&DispatcherDataBaseLock)`. -/
  | acquireAtDpcLevel
  /-- The locked section. -/
  | body (b : LockedBody τ ο)
  /-- `KeReleaseSpinLock` up to its call of `KeLowerIrql`. -/
  | unlock (name : SpinLockName) (target : UnlockTo)
  /-- `KeWaitForSingleObject`: the store to `OwnerThread`, and the release with `OldIrql`. -/
  | leaveWait
  /-- `KeReleaseSpinLockFromDpcLevel(&DispatcherDataBaseLock)`. -/
  | releaseFromDpcLevel
  /-- `KeLowerIrql`: `CurrentIrql` is read and compared, and goes down to `DISPATCH_LEVEL`. -/
  | lower
  /-- `KiProcessDpcQueue`. -/
  | dpcQueue
  /-- `KeLowerIrql`: `KiSetCurrentIrql(OldIrql)`. -/
  | storeIrql
  /-- `Schedule`: the loop that cleans up the terminated threads. -/
  | cleanUp
  /-- The part that is attached to another process, if there is one. -/
  | mayAttach
  /-- The end of a call or of an interrupt. -/
  | ret
  deriving DecidableEq

/-- The steps of `KeAcquireSpinLock(SpinLock, &OldIrql)`. -/
def acquireCode (name : SpinLockName) : List (LockOp τ ο) :=
  [.check name, .readIrql, .raiseIrql DISPATCH_LEVEL, .exchange name]

/-- The steps of a routine. -/
def LockCall.code : LockCall τ ο → List (LockOp τ ο)
  | .schedule =>
    acquireCode .DispatcherDataBaseLock
      ++ [.body .schedule, .unlock .DispatcherDataBaseLock .waitIrql, .lower]
      ++ acquireCode .ExitThreadLock ++ [.cleanUp, .unlock .ExitThreadLock .oldIrql, .lower, .ret]
  | .waitForSingleObject o =>
    .begin .waitCheck :: acquireCode .DispatcherDataBaseLock
      ++ [.body (.wait o), .leaveWait, .lower, .ret]
  | .releaseSemaphore o increment adjustment =>
    .begin (.semaphoreCheck o increment adjustment) :: acquireCode .DispatcherDataBaseLock
      ++ [.body (.release o), .unlock .DispatcherDataBaseLock .oldIrql, .lower, .ret]
  | .releaseMutant o =>
    .begin (.mutantBegin o) :: acquireCode .DispatcherDataBaseLock
      ++ [.body (.releaseMutant o), .unlock .DispatcherDataBaseLock .oldIrql, .lower, .ret]
  | .exitThread =>
    .begin .terminate :: acquireCode .DispatcherDataBaseLock
      ++ [.body .releaseAll, .unlock .DispatcherDataBaseLock .oldIrql, .lower, .call .schedule,
        .shouldNotReturn]
  | .createThread t basePriority process =>
    -- the lock of the process raises the IRQL
    [.readIrql, .raiseIrql DISPATCH_LEVEL, .mayAttach, .acquireAtDpcLevel,
      .body (.ready t basePriority process), .releaseFromDpcLevel, .lower, .ret]
  | .attachProcess =>
    acquireCode .DispatcherDataBaseLock
      ++ [.body .attach, .unlock .DispatcherDataBaseLock .oldIrql, .lower, .ret]
  | .exitOther => [.mayAttach, .ret]
  | .raised target => [.readIrql, .raiseIrql target, .work, .lower, .ret]
  | .dpcRoutine => [.work, .ret]

/-- **A routine on its way**: what it still has to do, its local variable `OldIrql`, and, to compare
with when it returns, the IRQL at which it was entered and the thread that called it. -/
structure LockFrame (τ ο : Type) where
  code : List (LockOp τ ο)
  OldIrql : Nat
  entry : Nat
  caller : τ
  deriving DecidableEq

/-- The stack of a thread that has not run yet: `KiStartThread`. -/
def kiStartThread (t : τ) : List (LockFrame τ ο) :=
  [⟨[.unlock .DispatcherDataBaseLock .passive, .lower, .startRoutine, .work, .call .exitThread,
    .shouldNotReturn], DISPATCH_LEVEL, DISPATCH_LEVEL, t⟩]

/-- The stack of a thread that runs its start routine. -/
def inStartRoutine (t : τ) : List (LockFrame τ ο) :=
  [⟨[.work, .call .exitThread, .shouldNotReturn], PASSIVE_LEVEL, PASSIVE_LEVEL, t⟩]

/-! ## The machine -/

/-- **The machine**: the scheduler with the dispatcher objects, the object of each thread, the
members `WaitIrql`, the spin locks, the IRQL, the stack of the running thread with the top frame
first, and the stacks of the other threads. -/
structure LockMachine (τ ο : Type) where
  ke : Ke τ ο
  threadObject : τ → ο
  WaitIrql : τ → Nat
  locks : SpinLockName → KSPIN_LOCK τ
  CurrentIrql : Nat
  stack : List (LockFrame τ ο)
  suspended : τ → List (LockFrame τ ο)

/-- What the running routine does where it has a choice. -/
inductive LockChoice (τ ο : Type)
  /-- It goes on. -/
  | go
  /-- It calls a routine. -/
  | call (routine : LockCall τ ο)
  deriving DecidableEq

namespace LockMachine

/-- `KeGetCurrentThread()`. -/
def current (m : LockMachine τ ο) : τ := m.ke.sched.CurrentThread

/-- Store to a spin lock. -/
def setLock (m : LockMachine τ ο) (name : SpinLockName) (l : KSPIN_LOCK τ) : LockMachine τ ο :=
  { m with locks := Function.update m.locks name l }

/-- The frame of a call. -/
def frame (m : LockMachine τ ο) (routine : LockCall τ ο) : LockFrame τ ο :=
  ⟨routine.code, m.CurrentIrql, m.CurrentIrql, m.current⟩

/-- **The machine after a step** that leaves `f` on top and the kernel state `ke`: if the step has
given the processor away, `KiContextSwitch` exchanges the stacks. -/
def next (m : LockMachine τ ο) (f : LockFrame τ ο) (rest : List (LockFrame τ ο)) (ke : Ke τ ο) :
    LockMachine τ ο :=
  if ke.sched.CurrentThread = m.current then { m with ke, stack := f :: rest }
  else
    let suspended := Function.update m.suspended m.current (f :: rest)
    { m with ke, stack := suspended ke.sched.CurrentThread, suspended }

/-- The assertions that the dispatcher database is locked by the current thread. -/
def assertLocked (m : LockMachine τ ο) : Kernel Unit := do
  assert ((m.locks .DispatcherDataBaseLock).Lock = 1) "Result == 1"
  assert ((m.locks .DispatcherDataBaseLock).Thread = some m.current) "Thread == CurrentThread1"

/-- What a prelude does. -/
def runPrelude (m : LockMachine τ ο) : Prelude ο → Kernel (Ke τ ο)
  | .waitCheck => do
    assert (m.CurrentIrql ≤ APC_LEVEL) "KeGetCurrentIrql() <= APC_LEVEL"
    return m.ke
  | .semaphoreCheck o increment adjustment => do
    assert ((m.ke.header o).SignalState < m.ke.Limit o)
      "Semaphore->Header.SignalState < Semaphore->Limit"
    assert (increment = 0) "Increment == 0"
    assert (adjustment = 1) "Adjustment == 1"
    return m.ke
  | .mutantBegin o => keReleaseMutantBegin o m.ke
  | .terminate => do
    assert ((m.ke.sched.tcb m.current).State = .RUNNING)
      "Thread->tcb.State == THREAD_STATE_RUNNING"
    return { m.ke with
      sched := m.ke.sched.modify m.current fun tcb => { tcb with State := .TERMINATED } }

/-- What a locked section does to the kernel state; the first component says whether it readies a
thread or switches, that is, whether the assertions about the lock are met. -/
def runBody (m : LockMachine τ ο) : LockedBody τ ο → Kernel (Bool × Ke τ ο)
  | .schedule => do
    let sched ← schedule m.ke.sched
    return (decide (sched.CurrentThread ≠ m.current), { m.ke with sched })
  | .wait o => do
    let (outcome, ke) ← keWaitForSingleObject o m.ke
    return (decide (outcome = .blocked), ke)
  | .release o => do
    let (thread, ke) ← kiDHeaderRelease o m.ke
    return (thread.isSome, ke)
  | .releaseMutant o => do
    let (thread, ke) ← keReleaseMutantLocked o m.ke
    return (thread.isSome, ke)
  | .releaseAll => do
    let o := m.threadObject m.current
    let ke ← kiDHeaderReleaseAll o m.ke
    return (!listEmpty (m.ke.header o).WaitListHead, ke)
  | .ready t basePriority process => do
    let sched ← pspCreateThread t basePriority process m.ke.sched
    return (true, { m.ke with sched })
  | .attach => .ok (false, m.ke)

/-- `Schedule` of a terminated thread takes and drops the lock of `ExitThreadList` inside its
locked section. -/
def exitLockPair (m : LockMachine τ ο) : LockedBody τ ο → Kernel (LockMachine τ ο)
  | .schedule =>
    if (m.ke.sched.tcb m.current).State = .TERMINATED then do
      let l ← keAcquireSpinLockAtDpcLevel m.CurrentIrql m.current (m.locks .ExitThreadLock)
      let l ← keReleaseSpinLockFromDpcLevel m.CurrentIrql m.current l
      return m.setLock .ExitThreadLock l
    else .ok m
  | _ => .ok m

/-- What is left of a routine behind its locked section: a terminated thread never comes back from
`Schedule`. -/
def codeBehind (m : LockMachine τ ο) (b : LockedBody τ ο) (code : List (LockOp τ ο)) :
    List (LockOp τ ο) :=
  match b with
  | .schedule =>
    if (m.ke.sched.tcb m.current).State = .TERMINATED then [.shouldNotReturn] else code
  | _ => code

/-- `WaitIrql` behind a locked section: `Schedule` stores the local variable `OldIrql`. -/
def waitIrqlAfter (m : LockMachine τ ο) (b : LockedBody τ ο) (old : Nat) : τ → Nat :=
  match b with
  | .schedule => Function.update m.WaitIrql m.current old
  | _ => m.WaitIrql

/-- The stacks behind a locked section: a new thread gets its own. -/
def suspendedAfter (m : LockMachine τ ο) : LockedBody τ ο → τ → List (LockFrame τ ο)
  | .ready t _ _ => Function.update m.suspended t (kiStartThread t)
  | _ => m.suspended

/-- **A locked section.** -/
def execBody (m : LockMachine τ ο) (b : LockedBody τ ο) (f : LockFrame τ ο)
    (code : List (LockOp τ ο)) (rest : List (LockFrame τ ο)) : Kernel (LockMachine τ ο) := do
  assert (m.CurrentIrql = DISPATCH_LEVEL) "KeGetCurrentIrql() == DISPATCH_LEVEL"
  let (touched, ke) ← m.runBody b
  if touched then m.assertLocked
  let m₁ ← m.exitLockPair b
  let m₂ := { m₁ with
    WaitIrql := m.waitIrqlAfter b f.OldIrql
    suspended := m.suspendedAfter b }
  return m₂.next { f with code := m.codeBehind b code } rest ke

/-- The IRQL that a release goes back to. -/
def unlockIrql (m : LockMachine τ ο) (f : LockFrame τ ο) : UnlockTo → Nat
  | .oldIrql => f.OldIrql
  | .waitIrql => m.WaitIrql f.caller
  | .passive => PASSIVE_LEVEL

/-- `KeReleaseSpinLock` with the IRQL `old`, up to its call of `KeLowerIrql`, whose argument is kept
in the frame. -/
def execUnlock (m : LockMachine τ ο) (name : SpinLockName) (old : Nat) (f : LockFrame τ ο)
    (code : List (LockOp τ ο)) (rest : List (LockFrame τ ο)) (ke : Ke τ ο) :
    Kernel (LockMachine τ ο) := do
  let l ← keReleaseSpinLock name m.CurrentIrql old m.current (m.locks name)
  return (m.setLock name l).next { f with code, OldIrql := old } rest ke

/-- **One step** of the routine with frame `f`, whose next step is `op`; `code` are the steps behind
it and `rest` the frames below. -/
def exec (m : LockMachine τ ο) (choice : LockChoice τ ο) (op : LockOp τ ο)
    (code : List (LockOp τ ο)) (f : LockFrame τ ο) (rest : List (LockFrame τ ο)) :
    Kernel (LockMachine τ ο) :=
  match op with
  | .work =>
    match choice with
    | .call routine => .ok { m with stack := m.frame routine :: f :: rest }
    | .go => .ok (m.next { f with code } rest m.ke)
  | .startRoutine => .ok (m.next { f with code } rest m.ke)
  | .call routine => .ok { m with stack := m.frame routine :: { f with code } :: rest }
  | .shouldNotReturn => keBugCheck "Should Never Return here\n"
  | .begin p => do
    let ke ← m.runPrelude p
    return m.next { f with code } rest ke
  | .check name => do
    keAcquireSpinLockCheck m.CurrentIrql m.current (m.locks name)
    return m.next { f with code } rest m.ke
  | .readIrql => .ok (m.next { f with code, OldIrql := m.CurrentIrql } rest m.ke)
  | .raiseIrql target => do
    assert (target ≥ f.OldIrql) "NewIrql >= CurrentIrql"
    assert (target ≠ 3) "NewIrql != 3"
    return { m with CurrentIrql := target }.next { f with code } rest m.ke
  | .exchange name => do
    let l ← (m.locks name).exchange f.OldIrql m.current
    return (m.setLock name l).next { f with code } rest m.ke
  | .acquireAtDpcLevel => do
    let l ← keAcquireSpinLockAtDpcLevel m.CurrentIrql m.current (m.locks .DispatcherDataBaseLock)
    return (m.setLock .DispatcherDataBaseLock l).next { f with code } rest m.ke
  | .body b => m.execBody b f code rest
  | .unlock name target => do
    -- `Schedule` compares `WaitIrql` first
    if target = .waitIrql then
      assert (m.WaitIrql f.caller ≤ DISPATCH_LEVEL) "CurrentThread->WaitIrql <= DISPATCH_LEVEL"
    m.execUnlock name (m.unlockIrql f target) f code rest m.ke
  | .leaveWait =>
    m.execUnlock .DispatcherDataBaseLock f.OldIrql f code rest (keResume m.ke)
  | .releaseFromDpcLevel => do
    let l ← keReleaseSpinLockFromDpcLevel m.CurrentIrql m.current (m.locks .DispatcherDataBaseLock)
    return (m.setLock .DispatcherDataBaseLock l).next { f with code } rest m.ke
  | .lower => do
    assert (f.OldIrql ≤ m.CurrentIrql) "OldIrql <= CurrentIrql"
    if f.OldIrql < DISPATCH_LEVEL ∧ m.CurrentIrql ≥ DISPATCH_LEVEL then
      return { m with CurrentIrql := DISPATCH_LEVEL }.next
        { f with code := .dpcQueue :: .storeIrql :: code } rest m.ke
    else return m.next { f with code := .storeIrql :: code } rest m.ke
  | .dpcQueue =>
    match choice with
    | .call .schedule => .ok { m with stack := m.frame .schedule :: f :: rest }
    | .call .dpcRoutine => .ok { m with stack := m.frame .dpcRoutine :: f :: rest }
    | _ => .ok (m.next { f with code } rest m.ke)
  | .storeIrql => .ok ({ m with CurrentIrql := f.OldIrql }.next { f with code } rest m.ke)
  | .cleanUp => do
    let (thread, sched) ← kiReapThread m.ke.sched
    if thread = none then
      return m.next { f with code } rest { m.ke with sched }
    else
      let m' := m.next f rest { m.ke with sched }
      return { m' with stack := m'.frame .exitOther :: m'.stack }
  | .mayAttach =>
    match choice with
    | .call .attachProcess =>
      .ok { m with stack := m.frame .attachProcess :: { f with code } :: rest }
    | _ => .ok (m.next { f with code } rest m.ke)
  | .ret => .ok { m with stack := rest }

/-- **The running routine does its next step.** -/
def step (m : LockMachine τ ο) (choice : LockChoice τ ο) : Kernel (LockMachine τ ο) :=
  match m.stack with
  | [] => .ok m
  | f :: rest =>
    match f.code with
    | [] => .ok m
    | op :: code => m.exec choice op code f rest

/-- **A device interrupt** with the given IRQL: the service routine touches nothing of this machine,
and `KeLowerIrql(OldIrql)` follows. -/
def interrupt (m : LockMachine τ ο) (irql : Nat) : LockMachine τ ο :=
  { m with
    CurrentIrql := irql
    stack := ⟨[.lower, .ret], m.CurrentIrql, m.CurrentIrql, m.current⟩ :: m.stack }

/-- The next step of the running routine. -/
def nextOp (m : LockMachine τ ο) : Option (LockOp τ ο) :=
  m.stack.head?.bind fun f => f.code.head?

end LockMachine

/-! ## Runs -/

/-- **What happens**: a device interrupts, or the running routine goes on. -/
inductive LockEvent (τ ο : Type)
  | interrupt (irql : Nat)
  | step (choice : LockChoice τ ο)

/-- Interrupts that come in below `DISPATCH_LEVEL` have an IRQL above it. -/
def LockEvent.Enabled (m : LockMachine τ ο) : LockEvent τ ο → Prop
  | .interrupt irql => m.CurrentIrql < DISPATCH_LEVEL ∧ DISPATCH_LEVEL < irql
  | .step _ => True

/-- What an event does. -/
def LockEvent.run (m : LockMachine τ ο) : LockEvent τ ο → Kernel (LockMachine τ ο)
  | .interrupt irql => .ok (m.interrupt irql)
  | .step choice => m.step choice

/-- **The start.** One thread runs its start routine at `PASSIVE_LEVEL`, the locks are free, and no
other thread has run yet. -/
structure LockMachine.Start (m : LockMachine τ ο) : Prop where
  irql : m.CurrentIrql = PASSIVE_LEVEL
  locks : ∀ name, m.locks name = ⟨0, none, 0⟩
  stack : m.stack = inStartRoutine m.current
  suspended : ∀ t, m.suspended t = kiStartThread t

/-- **The machine as a transition system**; a label is an event and the state it happens in. -/
def lockSystem (τ ο : Type) [DecidableEq τ] [DecidableEq ο] :
    System (LockEvent τ ο × LockMachine τ ο) (LockMachine τ ο) where
  init m := m.Start
  step _ m l m' := l.2 = m ∧ l.1.Enabled m ∧ l.1.run m = .ok m'

instance LockEvent.decidableEnabled (m : LockMachine τ ο) (e : LockEvent τ ο) :
    Decidable (e.Enabled m) :=
  match e with
  | .interrupt _ => inferInstanceAs (Decidable (_ ∧ _))
  | .step _ => inferInstanceAs (Decidable True)

end KaushOS
