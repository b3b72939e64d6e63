import KaushOS.Inc.List

/-! # The thread scheduler (`kern/ke/scheduler.c`)

The processor block keeps one queue of ready threads for each priority; a thread is linked through
its member `Scheduler_link`, which also links it into `ExitThreadList` once it has terminated. The
routines are translated statement by statement over a table of threads.

* **`KTHREAD`, `KPROCESS`, `Sched`** — what the routines read and write.
* **`kiSelectNextThread`, `kiReadyThread`, `kiSwapThread`** — the building blocks.
* **`schedule`, `kiBlockThread`** — the two ways to give up the processor.
* **`psSetTheadPriority`** — a store to `Priority`, whatever the thread is doing.

All routines run with the dispatcher database locked; the lock word, the interrupt level and the
register state that `KiContextSwitch` exchanges are not part of the model. A routine that switches
threads ends, as a step of the system, with the switch. -/

namespace KaushOS

open CircularList

/-! ## Threads and the processor block -/

/-- `THREAD_STATE`. -/
inductive THREAD_STATE
  | INITIALIZED
  | READY
  | STANDBY
  | RUNNING
  | WAITING
  | TERMINATED
  deriving DecidableEq, Repr

/-- `PROCESS_PRIORITY_IDLE`. The priorities are an enumeration that is counted down and used as an
array index; they are modelled by their values. -/
def PROCESS_PRIORITY_IDLE : Nat := 1

/-- `PROCESS_PRIORITY_NORMAL`. -/
def PROCESS_PRIORITY_NORMAL : Nat := 3

/-- `PROCESS_PRIORITY_MAX`. -/
def PROCESS_PRIORITY_MAX : Nat := 6

/-- The members of `KPROCESS` that the scheduler reads. -/
structure KPROCESS where
  DirectoryTableBase : UInt32
  Quantum : Int32
  deriving DecidableEq, Repr

/-- The members of `KTHREAD` that the scheduler reads or writes. `ThreadProcess` is the address of
the process. -/
structure KTHREAD (τ : Type) where
  ThreadProcess : UInt32
  Quantum : Int32
  State : THREAD_STATE
  Priority : Nat
  Scheduler_link : KListEntry τ
  deriving DecidableEq, Repr

/-- The member `Scheduler_link` of a `KTHREAD`. -/
def KTHREAD.schedulerLink (τ : Type) : EntryField (KTHREAD τ) τ where
  get := KTHREAD.Scheduler_link
  set r e := { r with Scheduler_link := e }
  get_set _ _ := rfl
  set_set _ _ _ := rfl

/-- **The scheduler's part of the kernel state**: the threads, the processes, the members
`CurrentThread` and `Scheduler_list` of the processor block, `ExitThreadList`, and the page
directory that the processor uses. -/
structure Sched (τ : Type) where
  tcb : τ → KTHREAD τ
  process : UInt32 → KPROCESS
  CurrentThread : τ
  Scheduler_list : Nat → ListHead τ
  ExitThreadList : ListHead τ
  PageDirectory : UInt32

variable {τ : Type} [DecidableEq τ]

/-- The links of the threads. -/
abbrev schedLinks (τ : Type) [DecidableEq τ] : LinkField (τ → KTHREAD τ) τ :=
  (KTHREAD.schedulerLink τ).links

/-- Store to members of the thread `t`. -/
def Sched.modify (s : Sched τ) (t : τ) (f : KTHREAD τ → KTHREAD τ) : Sched τ :=
  { s with tcb := Function.update s.tcb t (f (s.tcb t)) }

/-! ## Selecting, readying and switching -/

/-- The loop of `KiSelectNextThread`: the first priority, from `Priority` downwards, whose queue
is not empty; `none` when the priority drops below the requested one. -/
def selectLoop (currentPriority : Nat) (s : Sched τ) :
    Nat → Kernel (Option Nat)
  | 0 => if 0 < currentPriority then .ok none else .error (.assertion "Priority >= 0")
  | priority + 1 =>
    if priority + 1 < currentPriority then .ok none
    else if listEmpty (s.Scheduler_list (priority + 1)) then selectLoop currentPriority s priority
    else .ok (some (priority + 1))

/-- `KiSelectNextThread(CurrentPriority)`: take the first thread off the queue of the highest
priority that has one, unless that priority is below `CurrentPriority`. -/
def kiSelectNextThread (currentPriority : Nat) (s : Sched τ) :
    Kernel (Option τ × Sched τ) := do
  assert (currentPriority ≤ PROCESS_PRIORITY_MAX) "CurrentPriority <= PROCESS_PRIORITY_MAX"
  assert (currentPriority ≥ PROCESS_PRIORITY_IDLE) "CurrentPriority >= PROCESS_PRIORITY_IDLE"
  match ← selectLoop currentPriority s PROCESS_PRIORITY_MAX with
  | none => return (none, s)
  | some priority =>
    let (thread, head, tcb) ← listRemoveHead (schedLinks τ) (s.Scheduler_list priority) s.tcb
    assert (thread ≠ none) "Thread != NULL"
    return (thread,
      { s with tcb, Scheduler_list := Function.update s.Scheduler_list priority head })

/-- `KiReadyThread(Tcb)`. -/
def kiReadyThread (t : τ) (s : Sched τ) : Kernel (Sched τ) := do
  if (s.tcb t).State ≠ .INITIALIZED ∧ (s.tcb t).State ≠ .WAITING ∧ (s.tcb t).State ≠ .RUNNING then
    keBugCheck " Incorrect Thread State %d\n"
  let s := s.modify t fun tcb => { tcb with State := .READY }
  let s := s.modify t fun tcb => { tcb with Quantum := (s.process tcb.ThreadProcess).Quantum }
  let priority := (s.tcb t).Priority
  let (head, tcb) ← listInsertTail (schedLinks τ) (s.Scheduler_list priority) t s.tcb
  return { s with tcb, Scheduler_list := Function.update s.Scheduler_list priority head }

/-- `KiStandbyThread(Tcb)`. No state is different from neither `READY` nor `TERMINATED`, so the
check of the state always fails. -/
def kiStandbyThread (t : τ) (s : Sched τ) : Kernel (Sched τ) := do
  if (s.tcb t).State ≠ .READY ∨ (s.tcb t).State ≠ .TERMINATED then
    keBugCheck " Incorrect Thread State\n"
  let s :=
    if (s.tcb t).State ≠ .TERMINATED then s.modify t fun tcb => { tcb with State := .STANDBY }
    else s
  let priority := (s.tcb t).Priority
  let (head, tcb) ← listRemove (schedLinks τ) (s.Scheduler_list priority) t s.tcb
  return { s with tcb, Scheduler_list := Function.update s.Scheduler_list priority head }

/-- `KiAttachProcess(Process)`. -/
def kiAttachProcess (process : UInt32) (s : Sched τ) : Sched τ :=
  { s with PageDirectory := (s.process process).DirectoryTableBase }

/-- `KiSwapThread(CurrentThread, NextThread)`, up to the switch of the stacks. -/
def kiSwapThread (current next : τ) (s : Sched τ) : Kernel (Sched τ) := do
  assert (s.CurrentThread = current) "KeGetCurrentThread() == CurrentThread"
  assert ((s.tcb current).State = .READY ∨ (s.tcb current).State = .TERMINATED
      ∨ (s.tcb current).State = .WAITING)
    ("(CurrentThread->State == THREAD_STATE_READY) || "
      ++ "(CurrentThread->State == THREAD_STATE_TERMINATED) || "
      ++ "(CurrentThread->State == THREAD_STATE_WAITING)")
  assert ((s.tcb next).State = .READY) "(NextThread->State == THREAD_STATE_READY)"
  let s := s.modify next fun tcb => { tcb with State := .RUNNING }
  let s := { s with CurrentThread := next }
  return kiAttachProcess (s.tcb next).ThreadProcess s

/-! ## Giving up the processor -/

/-- `Schedule`, up to the switch of the stacks. A terminated thread goes onto `ExitThreadList` and
takes any thread as its successor; another thread only yields to its own priority or above. -/
def schedule (s : Sched τ) : Kernel (Sched τ) := do
  let current := s.CurrentThread
  if (s.tcb current).State = .TERMINATED then
    let (next, s) ← kiSelectNextThread PROCESS_PRIORITY_IDLE s
    assert (next ≠ none) "NextThread != NULL"
    assert (some current ≠ next) "CurrentThread != NextThread"
    let (head, tcb) ← listInsertTail (schedLinks τ) s.ExitThreadList current s.tcb
    let s := { s with tcb, ExitThreadList := head }
    kiSwapThread current (← deref next) s
  else
    let (next, s) ← kiSelectNextThread (s.tcb current).Priority s
    assert (some current ≠ next) "CurrentThread != NextThread"
    match next with
    | some next =>
      let s ← kiReadyThread current s
      kiSwapThread current next s
    | none => return s

/-- `KiBlockThread`, up to the switch of the stacks. -/
def kiBlockThread (s : Sched τ) : Kernel (Sched τ) := do
  let current := s.CurrentThread
  assert ((s.tcb current).State = .RUNNING) "CurrentThread->State == THREAD_STATE_RUNNING"
  let s := s.modify current fun tcb => { tcb with State := .WAITING }
  let (next, s) ← kiSelectNextThread PROCESS_PRIORITY_IDLE s
  assert (next ≠ none) "NextThread != NULL"
  kiSwapThread current (← deref next) s

/-- One round of the clean-up loop at the end of `Schedule`: take the first thread off
`ExitThreadList`. `PsExitThread` asserts that it does not run and, as it is terminated already,
only drops the reference to it. -/
def kiReapThread (s : Sched τ) : Kernel (Option τ × Sched τ) := do
  let (thread, head, tcb) ← listRemoveHead (schedLinks τ) s.ExitThreadList s.tcb
  let s := { s with tcb, ExitThreadList := head }
  match thread with
  | some t =>
    assert ((s.tcb t).State ≠ .RUNNING) "Thread->tcb.State != THREAD_STATE_RUNNING"
    return (some t, s)
  | none => return (none, s)

/-- `PsSetTheadPriority(Thread, Priority)`. -/
def psSetTheadPriority (t : τ) (priority : Nat) (s : Sched τ) : Sched τ :=
  s.modify t fun tcb => { tcb with Priority := priority }

/-! ## Field lemmas -/

section Fields

variable (s : Sched τ) (t : τ) (f : KTHREAD τ → KTHREAD τ)

@[simp] theorem Sched.modify_self : (s.modify t f).tcb t = f (s.tcb t) := by
  simp [Sched.modify]

theorem Sched.modify_of_ne {i : τ} (h : i ≠ t) : (s.modify t f).tcb i = s.tcb i := by
  simp [Sched.modify, h]

@[simp] theorem Sched.modify_CurrentThread : (s.modify t f).CurrentThread = s.CurrentThread := rfl

@[simp] theorem Sched.modify_Scheduler_list :
    (s.modify t f).Scheduler_list = s.Scheduler_list := rfl

@[simp] theorem Sched.modify_ExitThreadList :
    (s.modify t f).ExitThreadList = s.ExitThreadList := rfl

@[simp] theorem Sched.modify_process : (s.modify t f).process = s.process := rfl

end Fields

end KaushOS
