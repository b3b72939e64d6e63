import KaushOS.Ps.Process

/-! # Runs of processes and threads

The routines of `Process.lean` together with the scheduler: threads create processes and threads,
terminate themselves and give up the processor, and whoever runs next cleans up at the end of
`Schedule`.

* **`PsMachine`, `PsEvent`** — the state, and the calls that the current thread makes.
* **`psSystem`** — the runs, from the moment at which the idle thread has been created.
* **`schedule_threadProcess`** and its like — no step of the scheduler moves a thread to another
  process. -/

namespace KaushOS

open CircularList Transition

variable {τ : Type} [DecidableEq τ]

/-! ## The machine -/

/-- **The scheduler and the process manager together.** `inSchedule` counts the calls of `Schedule`
of a thread that have not come to the end of their clean-up loop. -/
structure PsMachine (τ : Type) where
  sched : Sched τ
  live : Finset τ
  ps : Ps τ
  inSchedule : τ → Nat

/-- `KeGetCurrentThread()`. -/
def PsMachine.current (m : PsMachine τ) : τ := m.sched.CurrentThread

/-- `KeGetCurrentProcess()` and `PsGetCurrentProcess()`. -/
def PsMachine.currentProcess (m : PsMachine τ) : UInt32 := (m.sched.tcb m.current).ThreadProcess

/-- **What the current thread does.** -/
inductive PsEvent (τ : Type)
  /-- `PsCreateProcess` makes the process `p` with its first thread `t`. -/
  | createProcess (p : UInt32) (t : τ) (kind : ProcessKind) (signalState : Int)
  /-- `PspCreateThread` makes the thread `t` of the process `p`, with a start routine. -/
  | createThread (t : τ) (p : UInt32) (signalState : Int)
  /-- `PsExitThread(NULL)`, or the start routine returns. -/
  | exit
  /-- `Schedule`, up to the clean-up loop. -/
  | schedule
  /-- One round of the clean-up loop at the end of `Schedule`. -/
  | cleanUp
  deriving DecidableEq

/-- `KeReleaseNotificationDHeader(&Thread->tcb.Header, 0)` of a thread that nobody waits for. -/
def Ps.keReleaseNotificationDHeader (t : τ) (s : Ps τ) : Kernel (Ps τ) := do
  assert ((s.ethread t).SignalState < MAX_DISPATCH_SIGNAL_STATE)
    "Dispatcher->SignalState < MAX_DISPATCH_SIGNAL_STATE"
  return s.modifyThread t fun e => { e with SignalState := 1 }

/-- **When the current thread makes a call.** New objects get memory that is free, and a thread is
created in a process that exists. The first thread of the system and the idle thread run for ever;
the former does not fork. -/
def PsEvent.Enabled (boot idle : τ) (m : PsMachine τ) : PsEvent τ → Prop
  | .createProcess p t kind _ =>
    m.inSchedule m.current = 0 ∧ p ≠ NULL ∧ p ∉ m.ps.processes ∧ t ∉ m.live
      ∧ (kind = .fork → m.current ≠ boot)
  | .createThread t p _ => m.inSchedule m.current = 0 ∧ t ∉ m.live ∧ p ∈ m.ps.processes
  | .exit => m.inSchedule m.current = 0 ∧ m.current ≠ boot ∧ m.current ≠ idle
  | .schedule => True
  | .cleanUp => 0 < m.inSchedule m.current

/-- Which calls are made can be decided. -/
instance PsEvent.decidableEnabled (boot idle : τ) (m : PsMachine τ) (e : PsEvent τ) :
    Decidable (e.Enabled boot idle m) := by
  cases e <;> unfold PsEvent.Enabled <;> infer_instance

/-- The thread `t` of the process `p` has been set up in `ps` and is made ready. -/
def PsMachine.startThread (m : PsMachine τ) (t : τ) (p : UInt32) (ps : Ps τ) :
    Kernel (PsMachine τ) := do
  let sched ← schedStep (.create t PROCESS_PRIORITY_NORMAL p) m.sched
  return { sched, live := insert t m.live, ps, inSchedule := Function.update m.inSchedule t 0 }

/-- `KPROCESS` of a new process. -/
def PsMachine.setProcess (m : PsMachine τ) (p : UInt32) (directory : Nat) : PsMachine τ :=
  { m with sched :=
    { m.sched with process :=
      Function.update m.sched.process p ⟨UInt32.ofNat directory, DEFAULT_PROCESS_QUANTUM⟩ } }

/-- One round of the clean-up loop: `PsExitThread(ExitedThread)` of a terminated thread only drops
the reference to it. -/
def PsMachine.cleanUp (m : PsMachine τ) : Kernel (PsMachine τ) := do
  let (thread, sched) ← kiReapThread m.sched
  match thread with
  | none =>
    return { m with
      sched, inSchedule := Function.update m.inSchedule m.current (m.inSchedule m.current - 1) }
  | some t =>
    let ps ← obDereferenceThread m.current m.currentProcess (sched.tcb t).State t m.ps
    return { m with sched, ps, live := if t ∈ ps.threads then m.live else m.live.erase t }

/-- **What the calls do.** -/
def PsEvent.run (m : PsMachine τ) : PsEvent τ → Kernel (PsMachine τ)
  | .createProcess p t kind signalState => do
    let ps ← psCreateProcess m.current m.currentProcess kind signalState p t m.ps
    (m.setProcess p (ps.eprocess p).DirectoryTableBase).startThread t p ps
  | .createThread t p signalState => do
    let ps ← m.ps.pspCreateThread m.current m.currentProcess false signalState t p
    m.startThread t p ps
  | .exit => do
    assert ((m.sched.tcb m.current).State = .RUNNING) "Thread->tcb.State == THREAD_STATE_RUNNING"
    let ps ← m.ps.keReleaseNotificationDHeader m.current
    -- the state of the thread and the switch to the next one
    let sched ← schedStep (.exit []) m.sched
    return { m with sched, ps }
  | .schedule => do
    let sched ← schedStep .schedule m.sched
    return { m with
      sched, inSchedule := Function.update m.inSchedule m.current (m.inSchedule m.current + 1) }
  | .cleanUp => m.cleanUp

/-! ## The start -/

/-- `OBJ_KERNEL_HANDLE`. -/
def OBJ_KERNEL_HANDLE : UInt32 := 0x00000200

/-- The header of the system process: permanent, and without a name. -/
def systemHeader : OBJECT_HEADER :=
  { createdHeader .OBJECT_TYPE_PROCESS with Attributes := OBJ_PERMANENT ||| OBJ_KERNEL_HANDLE }

/-- **The state in which `PsSystemProcessStart` has created the idle thread.** The first thread of
the system is no object and is not counted by the system process. -/
structure PsMachine.Start (boot idle : τ) (sys : UInt32) (m : PsMachine τ) : Prop where
  sched : (schedSystem (some idle)).init ⟨m.sched, m.live⟩
  current : m.sched.CurrentThread = boot
  ne : idle ≠ boot
  live : m.live = {boot, idle}
  threads : m.ps.threads = {idle}
  process : ∀ t ∈ m.live, (m.sched.tcb t).ThreadProcess = sys
    ∧ (m.ps.ethread t).ThreadsProcess = sys
  idleHeader : (m.ps.ethread idle).header = createdHeader .OBJECT_TYPE_THREAD
  idleFlags : (m.ps.ethread idle).Flags =
    THREAD_FLAG_ALLOCATED ||| THREAD_FLAG_INSERTED ||| THREAD_FLAG_CONTEXT_CREATED
  idleUserStack : (m.ps.ethread idle).UserStack = USERPTEPOOL_START
  processes : m.ps.processes = {sys}
  notNull : sys ≠ NULL
  system : ∃ directory handle, m.ps.eprocess sys =
      { initialProcess handle NULL with
        header := systemHeader
        DirectoryTableBase := directory
        RundownProtect := 1
        ThreadListHead := [boot, idle]
        ActiveThreads := 1 }
    ∧ m.ps.PidTable handle = .object sys
  pools : m.ps.userBitmaps = 1
  pool : m.ps.userBitmap 0 = ⟨userPteCount, fillRange (fun _ => false) 0 4 true⟩
  mapped : AllIn (m.ps.userMapped sys) (USERPTEPOOL_START / PGSIZE) 4 true
  pteCount : m.ps.systemPtes.bitmap.BitCount = systemPteCount
  kernelStack : ∃ i, (m.ps.ethread idle).KernelStack = MMSYSPTE_START + PGSIZE * i
    ∧ i + THREAD_STACK_SIZE ≤ systemPteCount
    ∧ AllIn m.ps.systemPtes.bitmap.bits i THREAD_STACK_SIZE true
    ∧ AllIn m.ps.systemPtes.mapped (MMSYSPTE_START / PGSIZE + i) THREAD_STACK_SIZE true
  lock : m.ps.DispatcherDataBaseLock = .free
  log : m.ps.log = []

/-- **Processes and threads as a transition system.** A label records the call and the state it was
made in. -/
def psSystem (boot idle : τ) (sys : UInt32) : System (PsEvent τ × PsMachine τ) (PsMachine τ) where
  init m := m.Start boot idle sys
  step _ m l m' := l.2 = m ∧ l.1.Enabled boot idle m ∧ l.1.run m = .ok m'

/-! ## Threads stay in their processes -/

/-- Link writes do not touch the processes of the threads. -/
theorem setLink_threadProcess {f : τ → UInt32} (s : τ → KTHREAD τ) (a : τ) (e : KListEntry τ)
    (h : ∀ i, (s i).ThreadProcess = f i) (i : τ) :
    (Function.update s a ((KTHREAD.schedulerLink τ).set (s a) e) i).ThreadProcess = f i := by
  by_cases hi : i = a
  · subst hi
    rw [Function.update_self]
    exact h i
  · rw [Function.update_of_ne hi]
    exact h i

section ThreadProcess

variable {s s' : Sched τ} {f : τ → UInt32}

/-- Stores to other members do not touch the processes of the threads. -/
theorem Sched.modify_threadProcess (h : ∀ i, (s.tcb i).ThreadProcess = f i) (t : τ)
    {g : KTHREAD τ → KTHREAD τ} (hg : ∀ r, (g r).ThreadProcess = r.ThreadProcess) (i : τ) :
    ((s.modify t g).tcb i).ThreadProcess = f i := by
  by_cases hi : i = t
  · subst hi
    rw [Sched.modify_self, hg]
    exact h i
  · rw [Sched.modify_of_ne s t g hi]
    exact h i

/-- Readying keeps the processes of the threads. -/
theorem kiReadyThread_threadProcess {t : τ} (hrun : kiReadyThread t s = .ok s')
    (h : ∀ i, (s.tcb i).ThreadProcess = f i) (i : τ) : (s'.tcb i).ThreadProcess = f i := by
  simp only [kiReadyThread] at hrun
  split at hrun
  · cases hrun
  obtain ⟨⟨head, tcb⟩, hinsert, hrun⟩ := kernel_bind_eq_ok.mp hrun
  cases hrun
  have h₁ := Sched.modify_threadProcess h t (g := fun tcb => { tcb with State := .READY })
    fun _ => rfl
  refine listInsertTail_keeps (P := fun tcb => ∀ i, (tcb i).ThreadProcess = f i) ?_ ?_ hinsert ?_ i
  · exact fun tcb a o htcb => setLink_threadProcess tcb a _ htcb
  · exact fun tcb a o htcb => setLink_threadProcess tcb a _ htcb
  · apply Sched.modify_threadProcess h₁
    exact fun _ => rfl

/-- Selecting keeps the processes of the threads. -/
theorem kiSelectNextThread_threadProcess {p : Nat} {next : Option τ}
    (hrun : kiSelectNextThread p s = .ok (next, s')) (h : ∀ i, (s.tcb i).ThreadProcess = f i)
    (i : τ) : (s'.tcb i).ThreadProcess = f i := by
  obtain ⟨u, -, hrun⟩ := kernel_bind_eq_ok.mp hrun
  obtain ⟨u, -, hrun⟩ := kernel_bind_eq_ok.mp hrun
  obtain ⟨priority, -, hrun⟩ := kernel_bind_eq_ok.mp hrun
  cases priority with
  | none =>
    cases hrun
    exact h i
  | some priority =>
    obtain ⟨⟨thread, head, tcb⟩, hremove, hrun⟩ := kernel_bind_eq_ok.mp hrun
    obtain ⟨u, -, hrun⟩ := kernel_bind_eq_ok.mp hrun
    cases hrun
    refine listRemoveHead_keeps (P := fun tcb => ∀ i, (tcb i).ThreadProcess = f i) ?_ ?_ hremove h i
    · exact fun tcb a o htcb => setLink_threadProcess tcb a _ htcb
    · exact fun tcb a o htcb => setLink_threadProcess tcb a _ htcb

/-- Switching keeps the processes of the threads. -/
theorem kiSwapThread_threadProcess {current next : τ} (hrun : kiSwapThread current next s = .ok s')
    (h : ∀ i, (s.tcb i).ThreadProcess = f i) (i : τ) : (s'.tcb i).ThreadProcess = f i := by
  obtain ⟨u, -, hrun⟩ := kernel_bind_eq_ok.mp hrun
  obtain ⟨u, -, hrun⟩ := kernel_bind_eq_ok.mp hrun
  obtain ⟨u, -, hrun⟩ := kernel_bind_eq_ok.mp hrun
  cases hrun
  exact Sched.modify_threadProcess h next (g := fun tcb => { tcb with State := .RUNNING })
    (fun _ => rfl) i

/-- `Schedule` keeps the processes of the threads. -/
theorem schedule_threadProcess (hrun : schedule s = .ok s')
    (h : ∀ i, (s.tcb i).ThreadProcess = f i) (i : τ) : (s'.tcb i).ThreadProcess = f i := by
  simp only [schedule] at hrun
  split at hrun
  · obtain ⟨⟨next, s₁⟩, hselect, hrun⟩ := kernel_bind_eq_ok.mp hrun
    obtain ⟨u, -, hrun⟩ := kernel_bind_eq_ok.mp hrun
    obtain ⟨u, -, hrun⟩ := kernel_bind_eq_ok.mp hrun
    obtain ⟨⟨head, tcb⟩, hinsert, hrun⟩ := kernel_bind_eq_ok.mp hrun
    obtain ⟨n, -, hrun⟩ := kernel_bind_eq_ok.mp hrun
    have h₁ := kiSelectNextThread_threadProcess hselect h
    refine kiSwapThread_threadProcess hrun (fun i => ?_) i
    refine listInsertTail_keeps (P := fun tcb => ∀ i, (tcb i).ThreadProcess = f i) ?_ ?_ hinsert
      h₁ i
    · exact fun tcb a o htcb => setLink_threadProcess tcb a _ htcb
    · exact fun tcb a o htcb => setLink_threadProcess tcb a _ htcb
  · obtain ⟨⟨next, s₁⟩, hselect, hrun⟩ := kernel_bind_eq_ok.mp hrun
    obtain ⟨u, -, hrun⟩ := kernel_bind_eq_ok.mp hrun
    have h₁ := kiSelectNextThread_threadProcess hselect h
    cases next with
    | none =>
      cases hrun
      exact h₁ i
    | some next =>
      obtain ⟨s₂, hready, hrun⟩ := kernel_bind_eq_ok.mp hrun
      exact kiSwapThread_threadProcess hrun (kiReadyThread_threadProcess hready h₁) i

/-- Cleaning up keeps the processes of the threads. -/
theorem kiReapThread_threadProcess {thread : Option τ} (hrun : kiReapThread s = .ok (thread, s'))
    (h : ∀ i, (s.tcb i).ThreadProcess = f i) (i : τ) : (s'.tcb i).ThreadProcess = f i := by
  obtain ⟨⟨t, head, tcb⟩, hremove, hrun⟩ := kernel_bind_eq_ok.mp hrun
  have h₁ : ∀ i, (tcb i).ThreadProcess = f i := by
    refine listRemoveHead_keeps (P := fun tcb => ∀ i, (tcb i).ThreadProcess = f i) ?_ ?_ hremove h
    · exact fun tcb a o htcb => setLink_threadProcess tcb a _ htcb
    · exact fun tcb a o htcb => setLink_threadProcess tcb a _ htcb
  cases t with
  | none =>
    cases hrun
    exact h₁ i
  | some t =>
    obtain ⟨u, -, hrun⟩ := kernel_bind_eq_ok.mp hrun
    cases hrun
    exact h₁ i

/-- A new thread belongs to the process it is created in. -/
theorem pspCreateThread_threadProcess {t : τ} {priority : Nat} {p : UInt32}
    (hrun : pspCreateThread t priority p s = .ok s') (h : ∀ i, (s.tcb i).ThreadProcess = f i)
    (i : τ) : (s'.tcb i).ThreadProcess = Function.update f t p i := by
  refine kiReadyThread_threadProcess hrun (fun i => ?_) i
  by_cases hi : i = t
  · subst hi
    rw [Sched.modify_self, Function.update_self]
  · rw [Sched.modify_of_ne _ _ _ hi, Function.update_of_ne hi]
    exact h i

/-- Terminating keeps the processes of the threads. -/
theorem psExitThread_threadProcess (hrun : psExitThread [] s = .ok s')
    (h : ∀ i, (s.tcb i).ThreadProcess = f i) (i : τ) : (s'.tcb i).ThreadProcess = f i := by
  obtain ⟨u, -, hrun⟩ := kernel_bind_eq_ok.mp hrun
  obtain ⟨s₁, hfold, hrun⟩ := kernel_bind_eq_ok.mp hrun
  cases hfold
  refine schedule_threadProcess hrun (fun i => ?_) i
  apply Sched.modify_threadProcess h
  exact fun _ => rfl

end ThreadProcess

end KaushOS
