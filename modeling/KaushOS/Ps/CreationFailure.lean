import KaushOS.Ps.StackLeak

/-! # Creations that fail (`PspCreateThread` and `PsCreateProcess`)

`Process.lean` has the creation of threads and processes as far as it succeeds. Here are the branches for
the failures that the code handles. Whatever step of `PspCreateThread` fails, it ends in an assertion: the
one behind `ObCreateObject`, or the one of `PsCloseThread`, because the thread that is given back has never
been terminated. `PsCreateProcess` would destroy the process without taking it off the list of active
processes, but gets no error to handle.

* **`Failures.pspCreateThread`, `Failures.psCreateProcess`** — the routines with these branches.
* **`pspCreateThread_of_success`** — without failures, the first is the one of `Process.lean`.
* **`thread_creation_never_undone`, `process_creation_never_undone`** — no failure is undone. -/

namespace KaushOS

open CircularList Transition

variable {τ ω : Type} [DecidableEq τ] [DecidableEq ω]

/-- `THREAD_FLAG_EXEC_STATE_MASK`. -/
def THREAD_FLAG_EXEC_STATE_MASK : UInt32 := 0x0f

/-! ## The routines -/

/-- **What the callees of `PspCreateThread` return.** `PspInsertThread` and `KiCreateThreadContext` never
return an error, but their caller handles one. -/
structure ThreadOutcomes where
  ObCreateObject : KSTATUS
  PspInsertThread : KSTATUS
  KiCreateThreadContext : KSTATUS

namespace Failures

/-- `PspAllocateThread(Process, Thread, IsClone)` for the object at `t`. -/
def pspAllocateThread (o : ThreadOutcomes) (current : τ) (currentProcess : UInt32) (isClone : Bool)
    (signalState : Int) (t : τ) (p : UInt32) (s : Ps τ) : Kernel (KSTATUS × Ps τ) :=
  if ¬ K_SUCCESS o.ObCreateObject then do
    assert False "0"
    return (o.ObCreateObject, s)
  else do
    let s := { s with threads := insert t s.threads }.modifyThread t fun _ => initialThread NULL 0 0
    let (kernelStack, systemPtes) ← mmAllocateSystemPtes THREAD_STACK_SIZE s.systemPtes
    let s := { s with systemPtes }
    match kernelStack with
    | none => do
      -- the state of a cleared object is `THREAD_STATE_INITIALIZED`
      let s ← obDereferenceThread current currentProcess .INITIALIZED t s
      return (.STATUS_INSUFFICIENT_RESOURCES, s)
    | some kernelStack => do
      let s := s.modifyThread t fun _ => initialThread p kernelStack signalState
      let s ← giveUserStack current currentProcess isClone t p s
      return (.STATUS_SUCCESS, s)

omit [DecidableEq τ] in
/-- `PspInsertThread(Process, Thread)`. -/
def pspInsertThread (status : KSTATUS) (p : UInt32) (t : τ) (s : Ps τ) : Ps τ :=
  if K_SUCCESS status then
    s.modifyProcess p fun e => { e with ThreadListHead := e.ThreadListHead ++ [t] }
  else s

/-- `PspCreateThread` releases the lock of the process. -/
def unlockProcess (current : τ) (p : UInt32) (s : Ps τ) : Kernel (Ps τ) := do
  let lock ← keReleaseProcessLock PASSIVE_LEVEL current (s.eprocess p).ProcessLock
  return s.modifyProcess p fun e => { e with ProcessLock := lock }

/-- `PspCreateThread`, behind the label `ErrorExit`. The thread has not been readied yet. -/
def errorExit (status : KSTATUS) (current : τ) (currentProcess : UInt32) (t : τ) (p : UInt32)
    (s : Ps τ) : Kernel (KSTATUS × Ps τ) := do
  let s ← unlockProcess current p s
  let s ← obDereferenceThread current currentProcess .INITIALIZED t s
  return (status, s)

/-- `PspCreateThread`, from `KiCreateThreadContext` on. The last assertion on the flags of the thread is
always true, because `|` binds weaker than `==`. -/
def createContext (o : ThreadOutcomes) (current : τ) (currentProcess : UInt32) (t : τ) (p : UInt32)
    (s : Ps τ) : Kernel (KSTATUS × Ps τ) :=
  if ¬ K_SUCCESS o.KiCreateThreadContext then
    errorExit o.KiCreateThreadContext current currentProcess t p s
  else do
    let s := s.modifyThread t fun e => { e with Flags := e.Flags ||| THREAD_FLAG_CONTEXT_CREATED }
    let s := s.modifyProcess p fun e => { e with ActiveThreads := e.ActiveThreads + 1 }
    let s ← unlockProcess current p (psIncProcessRundownProtect p s)
    return (.STATUS_SUCCESS, s)

/-- `PspCreateThread`, from `PspInsertThread` on. -/
def insertThread (o : ThreadOutcomes) (current : τ) (currentProcess : UInt32) (t : τ) (p : UInt32)
    (s : Ps τ) : Kernel (KSTATUS × Ps τ) := do
  assert ((s.ethread t).Flags &&& THREAD_FLAG_EXEC_STATE_MASK = 0)
    "(NewThread->Flags & THREAD_FLAG_EXEC_STATE_MASK) == 0"
  let s := s.modifyThread t fun e => { e with Flags := e.Flags ||| THREAD_FLAG_ALLOCATED }
  let s := pspInsertThread o.PspInsertThread p t s
  if ¬ K_SUCCESS o.PspInsertThread then
    errorExit o.PspInsertThread current currentProcess t p s
  else do
    assert ((s.ethread t).Flags &&& THREAD_FLAG_EXEC_STATE_MASK = THREAD_FLAG_ALLOCATED)
      "(NewThread->Flags & THREAD_FLAG_EXEC_STATE_MASK) == THREAD_FLAG_ALLOCATED"
    let s := s.modifyThread t fun e => { e with Flags := e.Flags ||| THREAD_FLAG_INSERTED }
    createContext o current currentProcess t p s

/-- **`PspCreateThread(Process, ThreadName, StartRoutine, StartContext, Thread)`** with its failures, as
far as it does not concern the scheduler, by a thread at `PASSIVE_LEVEL`. -/
def pspCreateThread (o : ThreadOutcomes) (current : τ) (currentProcess : UInt32) (isClone : Bool)
    (signalState : Int) (t : τ) (p : UInt32) (s : Ps τ) : Kernel (KSTATUS × Ps τ) := do
  let s := s.useProcess p
  let lock ← keAcquireSpinLock PASSIVE_LEVEL current (s.eprocess p).ProcessLock
  let s := s.modifyProcess p fun e => { e with ProcessLock := lock }
  let (status, s) ← pspAllocateThread o current currentProcess isClone signalState t p s
  if ¬ K_SUCCESS status then do
    let s ← unlockProcess current p s
    return (status, s)
  else insertThread o current currentProcess t p s

/-- **The state of the process manager and the object manager**, with the list of active processes. -/
structure Creation (τ ω : Type) where
  ps : Ps τ
  ob : Ob ω UInt32
  PsActiveProcessHead : List UInt32

/-- The argument `Parent` of `PspAllocateProcess`. -/
def parent (kind : ProcessKind) (currentProcess : UInt32) : UInt32 :=
  match kind with
  | .fork => currentProcess
  | .load parent _ => if parent then currentProcess else NULL

/-- Whether there is an argument `Binary`. -/
def binary : ProcessKind → Bool
  | .fork => false
  | .load _ _ => true

/-- Whether there is no argument `StartRoutine` for `PspCreateThread`, so that it makes a clone. -/
def clonesThread : ProcessKind → Bool
  | .fork => true
  | .load _ entryPoint => entryPoint = NULL

/-- `PspAllocateProcess` with the handle table of the process, which is filled on the way from the one of
the parent, in the memory `page`. -/
def pspAllocateProcess (current : τ) (currentProcess : UInt32) (kind : ProcessKind)
    (page : Option (HandlePage ω)) (p : UInt32) (c : Creation τ ω) : Kernel (Creation τ ω) := do
  let parent := parent kind currentProcess
  let ps ← KaushOS.pspAllocateProcess current p parent (binary kind) c.ps
  let (status, ob) ← obAllocateHandleTable p (if parent = NULL then none else some parent)
    (¬ binary kind ∧ parent ≠ NULL) page c.ob
  assert (K_SUCCESS status) "Status == STATUS_SUCCESS"
  return { c with ps, ob }

/-- `PsCreateProcess`, behind the label `ErrorExit`. -/
def processErrorExit (status : KSTATUS) (current : τ) (p : UInt32) (c : Creation τ ω) :
    Kernel (KSTATUS × Creation τ ω) := do
  let ps ← obDereferenceProcess (psDecProcessRundownProtect current (c.ps.processes.card + 1)) current p
    c.ps
  return (status, { c with ps })

/-- **`PsCreateProcess(...)`** with its failures, for the process object at `p`, whose first thread is
created by `createThread`. -/
def psCreateProcess (createThread : Ps τ → Kernel (KSTATUS × Ps τ)) (current : τ)
    (currentProcess : UInt32) (kind : ProcessKind) (page : Option (HandlePage ω)) (p : UInt32)
    (c : Creation τ ω) : Kernel (KSTATUS × Creation τ ω) := do
  let c ← pspAllocateProcess current currentProcess kind page p c
  let c := { c with ps := insertProcess p c.ps, PsActiveProcessHead := c.PsActiveProcessHead ++ [p] }
  let (status, ps) ← createThread c.ps
  let c := { c with ps }
  if ¬ K_SUCCESS status then
    processErrorExit status current p { c with
      ps := c.ps.modifyProcess p fun e =>
        { e with Flags := e.Flags &&& ~~~PROCESS_FLAG_FIRST_THREAD_CREATED } }
  else return (status, c)

end Failures

/-! ## What they should do -/

/-- **A step of `PspCreateThread` fails**, and the call should return `status`. -/
inductive ThreadFailure (o : ThreadOutcomes) (s : Ps τ) : KSTATUS → Prop
  | object (h : ¬ K_SUCCESS o.ObCreateObject) : ThreadFailure o s o.ObCreateObject
  | kernelStack (systemPtes : SystemPtes) (h : K_SUCCESS o.ObCreateObject)
      (hnone : mmAllocateSystemPtes THREAD_STACK_SIZE s.systemPtes = .ok (none, systemPtes)) :
      ThreadFailure o s .STATUS_INSUFFICIENT_RESOURCES
  | insertion (h : ¬ K_SUCCESS o.PspInsertThread) : ThreadFailure o s o.PspInsertThread
  | context (h : ¬ K_SUCCESS o.KiCreateThreadContext) : ThreadFailure o s o.KiCreateThreadContext

/-- **The failed creation of a thread is undone**: the error is returned, the lock is free again (its
release restores the IRQL), and the process and both bitmaps are as before. -/
def ThreadCreationUndone (status : KSTATUS) (p : UInt32) (s : Ps τ) (r : Kernel (KSTATUS × Ps τ)) :
    Prop :=
  ∃ s', r = .ok (status, s')
    ∧ (s'.eprocess p).ProcessLock = .free
    ∧ (s'.eprocess p).ThreadListHead = (s.eprocess p).ThreadListHead
    ∧ (s'.eprocess p).ActiveThreads = (s.eprocess p).ActiveThreads
    ∧ (s'.eprocess p).RundownProtect = (s.eprocess p).RundownProtect
    ∧ s'.userBitmap (s.eprocess p).UserPtePool = s.userBitmap (s.eprocess p).UserPtePool
    ∧ s'.systemPtes.bitmap = s.systemPtes.bitmap

/-- **The failed creation of a process is undone**: the error is returned, and the list of active processes,
the PID table, the counter of the parent and the counters of all objects are as before. -/
def ProcessCreationUndone (status : KSTATUS) (parent : UInt32) (c : Failures.Creation τ ω)
    (r : Kernel (KSTATUS × Failures.Creation τ ω)) : Prop :=
  ∃ c', r = .ok (status, c')
    ∧ c'.PsActiveProcessHead = c.PsActiveProcessHead
    ∧ c'.ps.PidTable = c.ps.PidTable
    ∧ (c'.ps.eprocess parent).RundownProtect = (c.ps.eprocess parent).RundownProtect
    ∧ ∀ x, (c'.ob.header x).RefCount = (c.ob.header x).RefCount

/-! ## Giving back a thread -/

section Thread

variable {s s' : Ps τ} {current t : τ} {p currentProcess : UInt32} {isClone : Bool} {signalState : Int}
  {o : ThreadOutcomes} {status : KSTATUS}

/-- **A new thread cannot be given back**: it has not been terminated. -/
theorem obDereferenceThread_initialized
    (hheader : (s.ethread t).header = createdHeader .OBJECT_TYPE_THREAD) :
    obDereferenceThread current currentProcess .INITIALIZED t s ≠ .ok s' := by
  intro hrun
  rw [obDereferenceThread_eq hheader] at hrun
  obtain ⟨closed, hclose, -⟩ := kernel_bind_eq_ok.mp hrun
  obtain ⟨_, -, hclose⟩ := kernel_bind_eq_ok.mp hclose
  obtain ⟨_, hstate, -⟩ := kernel_bind_eq_ok.mp hclose
  cases assert_eq_ok.mp hstate

/-- A user stack is given to a thread, which keeps its header and its flags. -/
theorem giveUserStack_keeps (hrun : giveUserStack current currentProcess isClone t p s = .ok s') :
    (s'.ethread t).header = (s.ethread t).header ∧ (s'.ethread t).Flags = (s.ethread t).Flags := by
  unfold giveUserStack at hrun
  split at hrun
  · cases hrun
    simp [Ps.modifyThread]
  · split at hrun
    · obtain ⟨⟨u, s₁⟩, hattached, hrun⟩ := kernel_bind_eq_ok.mp hrun
      cases hrun
      obtain ⟨lock, s₂, lock', halloc, rfl⟩ := attached_run hattached
      obtain ⟨stack, bitmap, mapped, rfl⟩ := allocateUserStack_ok halloc
      simp
    · obtain ⟨⟨u, s₁⟩, halloc, hrun⟩ := kernel_bind_eq_ok.mp hrun
      cases hrun
      obtain ⟨stack, bitmap, mapped, rfl⟩ := allocateUserStack_ok halloc
      simp

namespace Failures

/-- **Behind `ErrorExit`** nothing is returned. -/
theorem errorExit_never {r : KSTATUS × Ps τ}
    (hheader : (s.ethread t).header = createdHeader .OBJECT_TYPE_THREAD) :
    errorExit status current currentProcess t p s ≠ .ok r := by
  intro hrun
  obtain ⟨s₁, hunlock, hrun⟩ := kernel_bind_eq_ok.mp hrun
  obtain ⟨s₂, hdereference, -⟩ := kernel_bind_eq_ok.mp hrun
  obtain ⟨lock, -, hunlock⟩ := kernel_bind_eq_ok.mp hunlock
  cases hunlock
  refine obDereferenceThread_initialized ?_ hdereference
  exact hheader

/-- **The allocation of a thread** that returns has succeeded. -/
theorem pspAllocateThread_ok
    (hrun : pspAllocateThread o current currentProcess isClone signalState t p s = .ok (status, s')) :
    K_SUCCESS o.ObCreateObject ∧ status = .STATUS_SUCCESS
      ∧ (s'.ethread t).header = createdHeader .OBJECT_TYPE_THREAD ∧ (s'.ethread t).Flags = 0
      ∧ ∃ kernelStack systemPtes,
        mmAllocateSystemPtes THREAD_STACK_SIZE s.systemPtes = .ok (some kernelStack, systemPtes) := by
  unfold pspAllocateThread at hrun
  split at hrun
  · exact absurd hrun kernel_assert_false_bind
  · rename_i hcreated
    obtain ⟨⟨kernelStack, systemPtes⟩, hstack, hrun⟩ := kernel_bind_eq_ok.mp hrun
    cases kernelStack with
    | none =>
      obtain ⟨s₁, hdereference, -⟩ := kernel_bind_eq_ok.mp hrun
      refine absurd hdereference (obDereferenceThread_initialized ?_)
      simp [Ps.modifyThread, initialThread]
    | some kernelStack =>
      obtain ⟨s₁, hgive, hrun⟩ := kernel_bind_eq_ok.mp hrun
      cases hrun
      obtain ⟨hheader, hflags⟩ := giveUserStack_keeps hgive
      refine ⟨not_not.mp hcreated, rfl, hheader.trans ?_, hflags.trans ?_, kernelStack, systemPtes,
        hstack⟩
      · simp [Ps.modifyThread, initialThread]
      · simp [Ps.modifyThread, initialThread]

/-- **A creation that returns has succeeded**: no error is ever returned. -/
theorem pspCreateThread_ok
    (hrun : pspCreateThread o current currentProcess isClone signalState t p s = .ok (status, s')) :
    K_SUCCESS o.ObCreateObject ∧ K_SUCCESS o.PspInsertThread ∧ K_SUCCESS o.KiCreateThreadContext
      ∧ ∃ kernelStack systemPtes,
        mmAllocateSystemPtes THREAD_STACK_SIZE s.systemPtes = .ok (some kernelStack, systemPtes) := by
  obtain ⟨lock, -, hrun⟩ := kernel_bind_eq_ok.mp hrun
  obtain ⟨⟨status₁, s₁⟩, hallocate, hrun⟩ := kernel_bind_eq_ok.mp hrun
  obtain ⟨hcreated, rfl, hheader, -, hstack⟩ := pspAllocateThread_ok hallocate
  have hsuccess : K_SUCCESS .STATUS_SUCCESS := rfl
  refine ⟨hcreated, ?_⟩
  dsimp only at hrun
  rw [if_neg (not_not.mpr hsuccess)] at hrun
  obtain ⟨_, -, hrun⟩ := kernel_bind_eq_ok.mp hrun
  dsimp only at hrun
  split at hrun
  · rename_i hinsert
    refine absurd hrun (errorExit_never ?_)
    simpa [pspInsertThread, hinsert, Ps.modifyThread] using hheader
  · rename_i hinsert
    obtain ⟨_, -, hrun⟩ := kernel_bind_eq_ok.mp hrun
    unfold createContext at hrun
    split at hrun
    · refine absurd hrun (errorExit_never ?_)
      simpa [pspInsertThread, not_not.mp hinsert, Ps.modifyThread, Ps.modifyProcess] using hheader
    · rename_i hcontext
      exact ⟨not_not.mp hinsert, not_not.mp hcontext, hstack⟩

/-- Without failures a thread is allocated as in `Process.lean`. -/
theorem pspAllocateThread_of_success (hcreated : K_SUCCESS o.ObCreateObject) :
    pspAllocateThread o current currentProcess isClone signalState t p s = .ok (status, s')
      ↔ status = .STATUS_SUCCESS
        ∧ KaushOS.pspAllocateThread current currentProcess isClone signalState t p s = .ok s' := by
  -- the memory is cleared before it is filled
  have hcleared : ∀ (kernelStack : Nat) (systemPtes : SystemPtes),
      { { s with threads := insert t s.threads }.modifyThread t (fun _ => initialThread NULL 0 0) with
          systemPtes }.modifyThread t (fun _ => initialThread p kernelStack signalState)
        = { s with threads := insert t s.threads, systemPtes }.modifyThread t
          fun _ => initialThread p kernelStack signalState := by
    intro kernelStack systemPtes
    simp [Ps.modifyThread]
  rw [pspAllocateThread, if_neg (not_not.mpr hcreated)]
  constructor
  · intro hrun
    obtain ⟨⟨kernelStack, systemPtes⟩, hstack, hrun⟩ := kernel_bind_eq_ok.mp hrun
    cases kernelStack with
    | none =>
      obtain ⟨s₁, hdereference, -⟩ := kernel_bind_eq_ok.mp hrun
      refine absurd hdereference (obDereferenceThread_initialized ?_)
      simp [Ps.modifyThread, initialThread]
    | some kernelStack =>
      obtain ⟨s₁, hgive, hrun⟩ := kernel_bind_eq_ok.mp hrun
      cases hrun
      change mmAllocateSystemPtes THREAD_STACK_SIZE s.systemPtes = _ at hstack
      rw [hcleared] at hgive
      refine ⟨rfl, ?_⟩
      simp only [KaushOS.pspAllocateThread, allocateSystemPtes, hstack, kernel_ok_bind]
      exact hgive
  · rintro ⟨rfl, hrun⟩
    obtain ⟨⟨kernelStack, s₁⟩, hallocate, hgive⟩ := kernel_bind_eq_ok.mp hrun
    obtain ⟨systemPtes, hstack, rfl⟩ := allocateSystemPtes_ok hallocate
    change mmAllocateSystemPtes THREAD_STACK_SIZE s.systemPtes = _ at hstack
    refine kernel_bind_eq_ok.mpr ⟨(some kernelStack, systemPtes), hstack, ?_⟩
    dsimp only at hgive ⊢
    rw [hcleared, hgive]
    rfl

/-- Without failures a thread without flags gets all of them, and is inserted. -/
theorem insertThread_of_success (hinsert : K_SUCCESS o.PspInsertThread)
    (hcontext : K_SUCCESS o.KiCreateThreadContext) (hflags : (s.ethread t).Flags = 0) :
    insertThread o current currentProcess t p s
      = unlockProcess current p (psIncProcessRundownProtect p
          ((s.modifyThread t fun e => { e with Flags :=
              THREAD_FLAG_ALLOCATED ||| THREAD_FLAG_INSERTED ||| THREAD_FLAG_CONTEXT_CREATED }).modifyProcess p
            fun e => { e with
              ThreadListHead := e.ThreadListHead ++ [t], ActiveThreads := e.ActiveThreads + 1 }))
        >>= fun s => .ok (.STATUS_SUCCESS, s) := by
  have hnone : (0 : UInt32) &&& THREAD_FLAG_EXEC_STATE_MASK = 0 := by decide
  have hallocated : (0 ||| THREAD_FLAG_ALLOCATED) &&& THREAD_FLAG_EXEC_STATE_MASK
      = THREAD_FLAG_ALLOCATED := by decide
  have hall : 0 ||| THREAD_FLAG_ALLOCATED ||| THREAD_FLAG_INSERTED ||| THREAD_FLAG_CONTEXT_CREATED
      = THREAD_FLAG_ALLOCATED ||| THREAD_FLAG_INSERTED ||| THREAD_FLAG_CONTEXT_CREATED := by decide
  simp only [insertThread, hflags, assert_of_true hnone, kernel_ok_bind, pspInsertThread, if_pos hinsert,
    if_neg (not_not.mpr hinsert), createContext, if_neg (not_not.mpr hcontext), Ps.modifyThread,
    Ps.modifyProcess, Function.update_self, Function.update_idem, assert_of_true hallocated, hall]
  rfl

/-- **Without failures** the creation is the one of `Process.lean`. -/
theorem pspCreateThread_of_success (hcreated : K_SUCCESS o.ObCreateObject)
    (hinsert : K_SUCCESS o.PspInsertThread) (hcontext : K_SUCCESS o.KiCreateThreadContext) :
    pspCreateThread o current currentProcess isClone signalState t p s = .ok (status, s')
      ↔ status = .STATUS_SUCCESS
        ∧ s.pspCreateThread current currentProcess isClone signalState t p = .ok s' := by
  have hsuccess : K_SUCCESS .STATUS_SUCCESS := rfl
  constructor
  · intro hrun
    obtain ⟨lock, hlock, hrun⟩ := kernel_bind_eq_ok.mp hrun
    obtain ⟨⟨status₁, s₁⟩, hallocate, hrun⟩ := kernel_bind_eq_ok.mp hrun
    obtain ⟨-, rfl, -, hflags, -⟩ := pspAllocateThread_ok hallocate
    dsimp only at hrun
    rw [if_neg (not_not.mpr hsuccess), insertThread_of_success hinsert hcontext hflags] at hrun
    obtain ⟨s₂, hunlock, hrun⟩ := kernel_bind_eq_ok.mp hrun
    cases hrun
    refine ⟨rfl, kernel_bind_eq_ok.mpr ⟨lock, hlock, kernel_bind_eq_ok.mpr
      ⟨s₁, ((pspAllocateThread_of_success hcreated).mp hallocate).2, hunlock⟩⟩⟩
  · rintro ⟨rfl, hrun⟩
    obtain ⟨lock, hlock, hrun⟩ := kernel_bind_eq_ok.mp hrun
    obtain ⟨s₁, hallocate, hunlock⟩ := kernel_bind_eq_ok.mp hrun
    have hallocate' : pspAllocateThread o _ _ _ _ _ _ _ = .ok (.STATUS_SUCCESS, s₁) :=
      (pspAllocateThread_of_success hcreated).mpr ⟨rfl, hallocate⟩
    obtain ⟨-, -, -, hflags, -⟩ := pspAllocateThread_ok hallocate'
    refine kernel_bind_eq_ok.mpr ⟨lock, hlock, kernel_bind_eq_ok.mpr ⟨_, hallocate', ?_⟩⟩
    dsimp only
    rw [if_neg (not_not.mpr hsuccess), insertThread_of_success hinsert hcontext hflags]
    exact kernel_bind_eq_ok.mpr ⟨s', hunlock, rfl⟩

end Failures

/-! ## No failure is undone -/

omit [DecidableEq τ] in
/-- Nothing fails where everything has been created. -/
theorem ThreadFailure.not_created (hfail : ThreadFailure o s status)
    (h : K_SUCCESS o.ObCreateObject ∧ K_SUCCESS o.PspInsertThread ∧ K_SUCCESS o.KiCreateThreadContext
      ∧ ∃ kernelStack systemPtes,
        mmAllocateSystemPtes THREAD_STACK_SIZE s.systemPtes = .ok (some kernelStack, systemPtes)) :
    False := by
  obtain ⟨hcreated, hinsert, hcontext, kernelStack, systemPtes, hstack⟩ := h
  cases hfail with
  | object h => exact h hcreated
  | kernelStack _ _ hnone =>
    rw [hstack] at hnone
    cases hnone
  | insertion h => exact h hinsert
  | context h => exact h hcontext

/-- **A failed creation of a thread does not return**, whatever has failed. -/
theorem thread_creation_never_undone (hfail : ThreadFailure o s status) :
    ¬ ThreadCreationUndone status p s
      (Failures.pspCreateThread o current currentProcess isClone signalState t p s) := by
  rintro ⟨s', hrun, -⟩
  exact hfail.not_created (Failures.pspCreateThread_ok hrun)

end Thread

section Process

variable {c c' : Failures.Creation τ ω} {current t : τ} {p currentProcess : UInt32} {kind : ProcessKind}
  {page : Option (HandlePage ω)} {createThread : Ps τ → Kernel (KSTATUS × Ps τ)} {status : KSTATUS}
  {isClone : Bool} {signalState : Int} {o : ThreadOutcomes}

/-- **A process stays on the list of active processes**, also if its first thread could not be created,
whatever has been done about the thread. -/
theorem Failures.psCreateProcess_active
    (hrun : Failures.psCreateProcess createThread current currentProcess kind page p c
      = .ok (status, c')) :
    c'.PsActiveProcessHead = c.PsActiveProcessHead ++ [p] := by
  obtain ⟨c₁, hallocate, hrun⟩ := kernel_bind_eq_ok.mp hrun
  obtain ⟨⟨status₁, ps⟩, -, hrun⟩ := kernel_bind_eq_ok.mp hrun
  have hlist : c₁.PsActiveProcessHead = c.PsActiveProcessHead := by
    obtain ⟨ps₁, -, hallocate⟩ := kernel_bind_eq_ok.mp hallocate
    obtain ⟨⟨status₂, ob⟩, -, hallocate⟩ := kernel_bind_eq_ok.mp hallocate
    obtain ⟨_, -, hallocate⟩ := kernel_bind_eq_ok.mp hallocate
    cases hallocate
    rfl
  rw [← hlist]
  dsimp only at hrun
  split at hrun
  · obtain ⟨ps₂, -, hrun⟩ := kernel_bind_eq_ok.mp hrun
    cases hrun
    rfl
  · cases hrun
    rfl

/-- **Without failures** the creation is the one of `Process.lean`. -/
theorem Failures.psCreateProcess_of_success (hcreated : K_SUCCESS o.ObCreateObject)
    (hinsert : K_SUCCESS o.PspInsertThread) (hcontext : K_SUCCESS o.KiCreateThreadContext)
    (hrun : Failures.psCreateProcess
      (Failures.pspCreateThread o current currentProcess (Failures.clonesThread kind) signalState t p)
      current currentProcess kind page p c = .ok (status, c')) :
    KaushOS.psCreateProcess current currentProcess kind signalState p t c.ps = .ok c'.ps := by
  have hsuccess : K_SUCCESS .STATUS_SUCCESS := rfl
  obtain ⟨c₁, hallocate, hrun⟩ := kernel_bind_eq_ok.mp hrun
  obtain ⟨⟨status₁, ps⟩, hthread, hrun⟩ := kernel_bind_eq_ok.mp hrun
  obtain ⟨rfl, hadded⟩ := (Failures.pspCreateThread_of_success hcreated hinsert hcontext).mp hthread
  dsimp only at hrun
  rw [if_neg (not_not.mpr hsuccess)] at hrun
  cases hrun
  obtain ⟨ps₁, hps, hallocate⟩ := kernel_bind_eq_ok.mp hallocate
  obtain ⟨⟨status₂, ob⟩, -, hallocate⟩ := kernel_bind_eq_ok.mp hallocate
  obtain ⟨_, -, hallocate⟩ := kernel_bind_eq_ok.mp hallocate
  cases hallocate
  cases kind with
  | fork => exact kernel_bind_eq_ok.mpr ⟨ps₁, hps, hadded⟩
  | load parent entryPoint => exact kernel_bind_eq_ok.mpr ⟨ps₁, hps, hadded⟩

/-- **A failed creation of a process does not return**, because that of its first thread does not; and if
that did return, the process would stay active. -/
theorem process_creation_never_undone {c₁ : Failures.Creation τ ω}
    (hallocate : Failures.pspAllocateProcess current currentProcess kind page p c = .ok c₁)
    (hfail : ThreadFailure o (insertProcess p c₁.ps) status) :
    (∀ r, Failures.psCreateProcess
        (Failures.pspCreateThread o current currentProcess (Failures.clonesThread kind) signalState t p)
        current currentProcess kind page p c ≠ .ok r)
      ∧ ∀ createThread, ¬ ProcessCreationUndone status (Failures.parent kind currentProcess) c
        (Failures.psCreateProcess createThread current currentProcess kind page p c) := by
  constructor
  · intro r hrun
    obtain ⟨c₂, hallocate', hrun⟩ := kernel_bind_eq_ok.mp hrun
    obtain rfl := Except.ok.inj (hallocate.symm.trans hallocate')
    obtain ⟨⟨status₁, ps⟩, hthread, -⟩ := kernel_bind_eq_ok.mp hrun
    exact hfail.not_created (Failures.pspCreateThread_ok hthread)
  · rintro createThread ⟨c', hrun, hlist, -⟩
    have hlength := congrArg List.length ((Failures.psCreateProcess_active hrun).symm.trans hlist)
    rw [List.length_append, List.length_singleton] at hlength
    exact Nat.succ_ne_self _ hlength

end Process

/-! ## The first threads -/

/-- All system pages are in use. -/
def fullSystemPtes : SystemPtes := ⟨⟨systemPteCount, fun _ => true⟩, fun _ => true⟩

/-- There is no room for a kernel stack. -/
theorem fullSystemPtes_none :
    mmAllocateSystemPtes THREAD_STACK_SIZE fullSystemPtes = .ok (none, fullSystemPtes) := by
  obtain ⟨memory, m, hrun, hnone, hsome⟩ := mmAllocateSystemPtes_spec fullSystemPtes THREAD_STACK_SIZE
  cases memory with
  | none => rw [hrun, (hnone rfl).1]
  | some a =>
    obtain ⟨i, -, -, hclear, -⟩ := hsome a rfl
    exact Bool.noConfusion (hclear i (Nat.le_refl i) (Nat.lt_add_of_pos_right (by decide)))

/-- Every callee succeeds. -/
def noFailure : ThreadOutcomes := ⟨.STATUS_SUCCESS, .STATUS_SUCCESS, .STATUS_SUCCESS⟩

/-- The first thread of the system cannot create a thread without a kernel stack. -/
theorem thread_creation_never_undone_full :
    ¬ ThreadCreationUndone .STATUS_INSUFFICIENT_RESOURCES 4
      { firstThreads.ps with systemPtes := fullSystemPtes }
      (Failures.pspCreateThread noFailure 0 4 false 0 2 4
        { firstThreads.ps with systemPtes := fullSystemPtes }) :=
  thread_creation_never_undone (.kernelStack _ rfl fullSystemPtes_none)

/-- **No kernel stack for a new thread** is not an error that is returned. -/
theorem thread_creation_fails : ¬ ∀ (o : ThreadOutcomes) (status : KSTATUS) (s : Ps (Fin 4)),
    ThreadFailure o s status →
    ThreadCreationUndone status 4 s (Failures.pspCreateThread o 0 4 false 0 2 4 s) := by
  intro hall
  obtain ⟨s', hrun, -⟩ := hall noFailure _ { firstThreads.ps with systemPtes := fullSystemPtes }
    (.kernelStack _ rfl fullSystemPtes_none)
  obtain ⟨-, -, -, kernelStack, systemPtes, hstack⟩ := Failures.pspCreateThread_ok hrun
  change mmAllocateSystemPtes THREAD_STACK_SIZE fullSystemPtes = _ at hstack
  rw [fullSystemPtes_none] at hstack
  cases hstack

/-- The first two threads, and an object manager without objects and open handles. -/
def firstCreation : Failures.Creation (Fin 4) (Fin 3) where
  ps := firstThreads.ps
  ob :=
    { header := fun _ => clearedHeader
      objects := ∅
      Head := fun _ => []
      Flags := fun _ => 0
      ObRootDirectory := none
      Handle := fun _ _ => .invalid }
  PsActiveProcessHead := [4]

/-- The first thread of the system can allocate a process. -/
theorem firstCreation_allocates : ∃ c₁, Failures.pspAllocateProcess 0 4 (.load true 16)
    (some fun _ => .invalid) 8 firstCreation = .ok c₁ := by
  have hok : (Failures.pspAllocateProcess 0 4 (.load true 16) (some fun _ => .invalid) 8
      firstCreation).isOk = true := by decide +kernel
  generalize Failures.pspAllocateProcess 0 4 (.load true 16) (some fun _ => .invalid) 8 firstCreation = r
    at hok
  cases r with
  | ok c₁ => exact ⟨c₁, rfl⟩
  | error e => cases hok

/-- No memory for a thread object. -/
def noThreadObject : ThreadOutcomes :=
  ⟨.STATUS_INSUFFICIENT_RESOURCES, .STATUS_SUCCESS, .STATUS_SUCCESS⟩

/-- The first thread of the system cannot create a process without memory for a thread object. -/
theorem process_creation_never_undone_object : ¬ ProcessCreationUndone .STATUS_INSUFFICIENT_RESOURCES 4
    firstCreation
    (Failures.psCreateProcess (Failures.pspCreateThread noThreadObject 0 4 false 0 2 8) 0 4
      (.load true 16) (some fun _ => .invalid) 8 firstCreation) := by
  obtain ⟨c₁, hallocate⟩ := firstCreation_allocates
  have hfail : ThreadFailure noThreadObject (insertProcess 8 c₁.ps) .STATUS_INSUFFICIENT_RESOURCES :=
    .object (by decide)
  obtain ⟨-, hnever⟩ : (∀ r, Failures.psCreateProcess
      (Failures.pspCreateThread noThreadObject 0 4 false 0 2 8) 0 4 (.load true 16)
      (some fun _ => .invalid) 8 firstCreation ≠ .ok r) ∧ _ :=
    process_creation_never_undone hallocate hfail
  exact hnever _

/-- **No memory for the first thread** is not an error that is returned. -/
theorem process_creation_fails : ¬ ∀ (o : ThreadOutcomes) (status : KSTATUS)
    (c c₁ : Failures.Creation (Fin 4) (Fin 3)),
    Failures.pspAllocateProcess 0 4 (.load true 16) (some fun _ => .invalid) 8 c = .ok c₁ →
    ThreadFailure o (insertProcess 8 c₁.ps) status →
    ProcessCreationUndone status 4 c
      (Failures.psCreateProcess (Failures.pspCreateThread o 0 4 false 0 2 8) 0 4
        (.load true 16) (some fun _ => .invalid) 8 c) := by
  intro hall
  obtain ⟨c₁, hallocate⟩ := firstCreation_allocates
  obtain ⟨c', hrun, hlist, -⟩ := hall noThreadObject _ _ c₁ hallocate (.object (by decide))
  have hlength := congrArg List.length ((Failures.psCreateProcess_active hrun).symm.trans hlist)
  rw [List.length_append, List.length_singleton] at hlength
  exact Nat.succ_ne_self _ hlength

end KaushOS
