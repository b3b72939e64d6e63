import KaushOS.Ps.Rundown
import KaushOS.Ps.ThreadLists

/-! # The end of a process (`PspExitProcess` in `kern/ps/process.c`)

`PspExitProcess` takes the threads of a process off its list, one by one, and is meant to terminate each of
them with `PsExitThread`. What it passes is the variable `ExitedThread`, to which nothing is ever assigned;
and the list is the one that `PsCloseThread` edits, under the lock that `PspExitProcess` holds.

* **`pspExitProcess`** — the routine, for every content of `ExitedThread`.
* **`ExitsOnce`** — what it should do.
* **`psExitThread_member`** — a thread that is passed while the lock is held does not get through.
* **`exit_process_iff`** — the routine does what it should if and only if the process has no threads. -/

namespace KaushOS

open CircularList Transition

variable {τ : Type} [DecidableEq τ]

/-! ## The routine -/

/-- `PROCESS_STATE`. -/
inductive PROCESS_STATE
  | IDLE
  | ACTIVE
  | CREATION
  | TERMINATED
  deriving DecidableEq, Repr

/-- **What `PspExitProcess` does to threads and lists.** -/
inductive ExitAction (τ : Type)
  /-- `PsExitThread` is called, for `NULL` or a thread. -/
  | exit (t : Option τ)
  /-- A thread is taken off the list of a process; `member` tells whether it was on it. -/
  | removeThread (t : τ) (p : UInt32) (member : Bool)
  /-- A process is taken off the list of active processes. -/
  | removeProcess (p : UInt32) (member : Bool)
  deriving DecidableEq, Repr

/-- **The machine with the active processes**, the members `State` and `SignalState` of the processes, and
what has been done, the latest first. -/
structure ExitMachine (τ : Type) where
  machine : PsMachine τ
  PsActiveProcessHead : List UInt32
  State : UInt32 → PROCESS_STATE
  SignalState : UInt32 → Int
  log : List (ExitAction τ)

/-- Something is done. -/
def ExitMachine.record (x : ExitMachine τ) (a : ExitAction τ) : ExitMachine τ :=
  { x with log := a :: x.log }

/-- The state of the process manager is another one. -/
def ExitMachine.setPs (x : ExitMachine τ) (ps : Ps τ) : ExitMachine τ :=
  { x with machine := { x.machine with ps } }

/-- The removal by `PsCloseThread`, if there was one between the two states. -/
def ExitMachine.recordRemoval (x : ExitMachine τ) (t : τ) (s s' : Ps τ) : ExitMachine τ :=
  let p := (s.ethread t).ThreadsProcess
  if (s.ethread t).Flags &&& THREAD_FLAG_INSERTED ≠ 0
      ∧ (s'.ethread t).Flags &&& THREAD_FLAG_INSERTED = 0 then
    x.record (.removeThread t p (t ∈ (s.eprocess p).ThreadListHead))
  else x

/-- `PsExitThread` of another thread: it is pulled out of its queue. -/
def pullOut (t : τ) (m : PsMachine τ) : Kernel (PsMachine τ) :=
  if (m.sched.tcb t).State = .READY then do
    let sched ← kiStandbyThread t m.sched
    return { m with sched }
  else .ok m

/-- `PsExitThread` of another thread: it is marked, and whoever waits for it is released. -/
def markTerminated (t : τ) (m : PsMachine τ) : Kernel (PsMachine τ) :=
  if (m.sched.tcb t).State ≠ .TERMINATED then do
    let ps ← m.ps.keReleaseNotificationDHeader t
    return { m with sched := m.sched.modify t fun tcb => { tcb with State := .TERMINATED }, ps }
  else .ok m

/-- `PsExitThread(Thread)`; the result tells whether it returns. A thread that terminates itself never
runs again. -/
def psExitThreadOf (thread : Option τ) (x : ExitMachine τ) : Kernel (Bool × ExitMachine τ) :=
  let x := x.record (.exit thread)
  let t := thread.getD x.machine.current
  if t = x.machine.current then do
    let machine ← PsEvent.exit.run x.machine
    return (false, { x with machine })
  else do
    assert ((x.machine.sched.tcb t).State ≠ .RUNNING) "Thread->tcb.State != THREAD_STATE_RUNNING"
    let m ← pullOut t x.machine
    let m ← markTerminated t m
    let ps ← obDereferenceThread m.current m.currentProcess (m.sched.tcb t).State t m.ps
    let live := if t ∈ ps.threads then m.live else m.live.erase t
    return (true, { x with machine := { m with ps, live } }.recordRemoval t m.ps ps)

/-- The loop of `PspExitProcess`, with the content of `ExitedThread` in each round and the value of
`LastThread`. The result is `LastThread` behind the loop, or `none` if a call does not return. Each round
takes a thread off the list, and nothing puts one on. -/
def exitThreads (p : UInt32) (exitedThread : Nat → Option τ) :
    Nat → Nat → Option τ → ExitMachine τ → Kernel (Option (Option τ) × ExitMachine τ)
  | 0, _, lastThread, x =>
    if (x.machine.ps.eprocess p).ThreadListHead = [] then .ok (some lastThread, x)
    else .error .endlessLoop
  | rounds + 1, round, lastThread, x =>
    match (x.machine.ps.eprocess p).ThreadListHead with
    | [] => .ok (some lastThread, x)
    | nextThread :: rest =>
      let x := x.setPs (x.machine.ps.modifyProcess p fun e => { e with ThreadListHead := rest })
      let x := x.record (.removeThread nextThread p true)
      if nextThread ≠ x.machine.current then do
        let (returned, x) ← psExitThreadOf (exitedThread round) x
        if returned then exitThreads p exitedThread rounds (round + 1) lastThread x
        else return (none, x)
      else exitThreads p exitedThread rounds (round + 1) (some x.machine.current) x

/-- `ObReferenceObject(Object)` on the header of the object. -/
def referenceHeader (h : OBJECT_HEADER) : Kernel OBJECT_HEADER := do
  assert (h.RefCount ≠ 0) "ObjectHeader->RefCount != 0"
  assert (h.Magic = OBJECT_HEADER_MAGIC) "ObIsValidObject(Object)"
  return { h with RefCount := h.RefCount + 1 }

/-- `KeReleaseNotificationDHeader(&Process->pcb.Header, 0)` of a process that nobody waits for. -/
def ExitMachine.keReleaseNotificationDHeader (p : UInt32) (x : ExitMachine τ) :
    Kernel (ExitMachine τ) := do
  assert (x.SignalState p < MAX_DISPATCH_SIGNAL_STATE)
    "Dispatcher->SignalState < MAX_DISPATCH_SIGNAL_STATE"
  return { x with SignalState := Function.update x.SignalState p 1 }

/-- `PspRemoveProcess(Process)`. -/
def pspRemoveProcess (p : UInt32) (x : ExitMachine τ) : Kernel (ExitMachine τ) := do
  assert (x.State p = .TERMINATED) "Process->pcb.State == PROCESS_STATE_TERMINATED"
  return { x with PsActiveProcessHead := x.PsActiveProcessHead.erase p }.record
    (.removeProcess p (p ∈ x.PsActiveProcessHead))

/-- `PspExitProcess`, up to its loop: the process is checked, marked and referenced, and its lock is
acquired. -/
def beginExit (p : UInt32) (x : ExitMachine τ) : Kernel (ExitMachine τ) := do
  let m := x.machine
  let e := m.ps.eprocess p
  assert (e.header.Magic = OBJECT_HEADER_MAGIC) "ObIsValidObject(Process)"
  assert (x.State p ≠ .TERMINATED) "Process->pcb.State != PROCESS_STATE_TERMINATED"
  assert (e.Flags &&& PROCESS_FLAG_CLEANUP_MASK &&& PROCESS_FLAG_FIRST_THREAD_CREATED ≠ 0)
    "ProcessGetCleanupFlags(Process) & PROCESS_FLAG_FIRST_THREAD_CREATED"
  assert (e.Flags &&& PROCESS_FLAG_CLEANUP_MASK &&& PROCESS_FLAG_INSERTED ≠ 0)
    "ProcessGetCleanupFlags(Process) & PROCESS_FLAG_INSERTED"
  assert (e.Flags &&& PROCESS_FLAG_CLEANUP_MASK &&& PROCESS_FLAG_ALLOCATED ≠ 0)
    "ProcessGetCleanupFlags(Process) & PROCESS_FLAG_ALLOCATED"
  let x := { x with State := Function.update x.State p .TERMINATED }
  let x ← x.keReleaseNotificationDHeader p
  let header ← referenceHeader e.header
  -- the flag of the first thread has been checked
  let lock ← keAcquireSpinLock PASSIVE_LEVEL m.current e.ProcessLock
  return x.setPs (m.ps.modifyProcess p fun e => { e with header, ProcessLock := lock })

/-- `PspExitProcess` behind its loop: the process is taken off the list of active processes. -/
def removeInserted (p : UInt32) (x : ExitMachine τ) : Kernel (ExitMachine τ) :=
  if (x.machine.ps.eprocess p).Flags &&& PROCESS_FLAG_CLEANUP_MASK &&& PROCESS_FLAG_INSERTED ≠ 0 then do
    let x ← pspRemoveProcess p x
    return x.setPs (x.machine.ps.modifyProcess p fun e =>
      { e with Flags := e.Flags &&& ~~~PROCESS_FLAG_INSERTED })
  else .ok x

/-- `PspExitProcess` behind its loop, up to the end of the calling thread. -/
def endExit (p : UInt32) (x : ExitMachine τ) : Kernel (ExitMachine τ) := do
  let m := x.machine
  let lock ← keReleaseProcessLock PASSIVE_LEVEL m.current (m.ps.eprocess p).ProcessLock
  let x := x.setPs (m.ps.modifyProcess p fun e => { e with
    ProcessLock := lock, Flags := e.Flags &&& ~~~PROCESS_FLAG_FIRST_THREAD_CREATED })
  let x ← removeInserted p x
  let ps ← obDereferenceProcess
    (psDecProcessRundownProtect m.current (x.machine.ps.processes.card + 1)) m.current p x.machine.ps
  return x.setPs ps

/-- **`PspExitProcess(Process)`**, for the contents of the variable `ExitedThread`; the result tells
whether it returns. -/
def pspExitProcess (exitedThread : Nat → Option τ) (p : UInt32) (x : ExitMachine τ) :
    Kernel (Bool × ExitMachine τ) := do
  let x ← beginExit p x
  let (lastThread, x) ← exitThreads p exitedThread
    (x.machine.ps.eprocess p).ThreadListHead.length 0 none x
  match lastThread with
  | none => return (false, x)
  | some lastThread => do
    let x ← endExit p x
    match lastThread with
    | none => return (true, x)
    | some t => do
      assert (t = x.machine.current) "LastThread == CurrentThread"
      psExitThreadOf (some t) x

/-! ## What it should do -/

/-- The values that have been passed to `PsExitThread`, the latest first. -/
def ExitMachine.passed (x : ExitMachine τ) : List (Option τ) :=
  x.log.filterMap fun a => match a with
    | .exit t => some t
    | _ => none

/-- Every element that has been removed from a list was on it. -/
def ExitMachine.RemovesMembers (x : ExitMachine τ) : Prop :=
  ∀ a ∈ x.log, match a with
    | .removeThread _ _ member | .removeProcess _ member => member = true
    | .exit _ => True

/-- **Every thread of the process is terminated once.** The call returns or ends with the thread that made
it. Each thread on the list has been passed to `PsExitThread` once, the calling one last, and nothing else
has. The list is empty, and the process is not active. What has been removed from a list was on it, and so
is each thread that `PsCloseThread` has still to remove. A lock that is acquired again by its owner fails
an assertion. -/
def ExitsOnce (p : UInt32) (x : ExitMachine τ) (r : Kernel (Bool × ExitMachine τ)) : Prop :=
  ∃ returned x', r = .ok (returned, x')
    ∧ x'.passed.Perm ((x.machine.ps.eprocess p).ThreadListHead.map some)
    ∧ (x.machine.current ∈ (x.machine.ps.eprocess p).ThreadListHead →
      x'.passed.head? = some (some x.machine.current))
    ∧ (x'.machine.ps.eprocess p).ThreadListHead = []
    ∧ p ∉ x'.PsActiveProcessHead
    ∧ x'.RemovesMembers
    ∧ ∀ t ∈ (x.machine.ps.eprocess p).ThreadListHead,
      (x'.machine.ps.ethread t).Flags &&& THREAD_FLAG_INSERTED ≠ 0 →
      t ∈ (x'.machine.ps.eprocess p).ThreadListHead

/-- **The process is active**: it is on the list of active processes once, nothing has been signalled, and
nothing has been logged yet. -/
structure ExitMachine.Active (p : UInt32) (x : ExitMachine τ) : Prop where
  state : x.State p = .ACTIVE
  member : p ∈ x.PsActiveProcessHead
  nodup : x.PsActiveProcessHead.Nodup
  signal : x.SignalState p < MAX_DISPATCH_SIGNAL_STATE
  log : x.log = []

/-! ## What is logged stays -/

section Log

variable {x x' : ExitMachine τ} {p : UInt32} {t : τ} {thread : Option τ} {returned : Bool}

omit [DecidableEq τ] in
/-- What has been passed stays so. -/
theorem passed_subset (h : x.log <:+ x'.log) : x.passed ⊆ x'.passed := by
  intro a ha
  obtain ⟨action, hmem, heq⟩ := List.mem_filterMap.mp ha
  exact List.mem_filterMap.mpr ⟨action, h.subset hmem, heq⟩

/-- The removal is all that may be added to the log. -/
theorem recordRemoval_log {s s' : Ps τ} {log : List (ExitAction τ)} (h : x.log = log) :
    log <:+ (x.recordRemoval t s s').log := by
  subst h
  unfold ExitMachine.recordRemoval
  dsimp only
  split
  · exact List.suffix_cons _ _
  · exact List.suffix_refl _

/-- **A call of `PsExitThread`** is logged. -/
theorem psExitThreadOf_log (hrun : psExitThreadOf thread x = .ok (returned, x')) :
    .exit thread :: x.log <:+ x'.log := by
  unfold psExitThreadOf at hrun
  dsimp only at hrun
  split at hrun
  · obtain ⟨m, -, hrun⟩ := kernel_bind_eq_ok.mp hrun
    cases hrun
    exact List.suffix_refl _
  · obtain ⟨u, -, hrun⟩ := kernel_bind_eq_ok.mp hrun
    obtain ⟨m, -, hrun⟩ := kernel_bind_eq_ok.mp hrun
    obtain ⟨m', -, hrun⟩ := kernel_bind_eq_ok.mp hrun
    obtain ⟨ps, -, hrun⟩ := kernel_bind_eq_ok.mp hrun
    cases hrun
    exact recordRemoval_log rfl

/-- The loop only adds to the log. -/
theorem exitThreads_log {exitedThread : Nat → Option τ} {rounds round : Nat}
    {lastThread : Option τ} {result : Option (Option τ)}
    (hrun : exitThreads p exitedThread rounds round lastThread x = .ok (result, x')) :
    x.log <:+ x'.log := by
  induction rounds generalizing round lastThread x with
  | zero =>
    unfold exitThreads at hrun
    split at hrun
    · cases hrun
      exact List.suffix_refl _
    · cases hrun
  | succ rounds ih =>
    unfold exitThreads at hrun
    split at hrun
    · cases hrun
      exact List.suffix_refl _
    · rename_i next rest _
      have hpop : x.log <:+ .removeThread next p true :: x.log := List.suffix_cons _ _
      dsimp only at hrun
      split at hrun
      · obtain ⟨⟨returned, x₁⟩, hexit, hrun⟩ := kernel_bind_eq_ok.mp hrun
        have hlog := hpop.trans ((List.suffix_cons _ _).trans (psExitThreadOf_log hexit))
        cases returned with
        | true => exact hlog.trans (ih hrun)
        | false =>
          cases hrun
          exact hlog
      · exact hpop.trans (ih hrun)

/-- What follows the loop calls no `PsExitThread`. -/
theorem endExit_log (hrun : endExit p x = .ok x') :
    x.log <:+ x'.log ∧ x'.passed = x.passed ∧ x'.machine.current = x.machine.current
      ∧ x'.machine.ps.ethread = x.machine.ps.ethread := by
  obtain ⟨lock, -, hrun⟩ := kernel_bind_eq_ok.mp hrun
  obtain ⟨x₁, hremove, hrun⟩ := kernel_bind_eq_ok.mp hrun
  obtain ⟨ps, hdereference, hrun⟩ := kernel_bind_eq_ok.mp hrun
  cases hrun
  have hfalls := obDereferenceProcess_falls (fun q s s' h => psDecProcessRundownProtect_falls _ h)
    hdereference
  unfold removeInserted at hremove
  split at hremove
  · obtain ⟨x₂, hremove, hset⟩ := kernel_bind_eq_ok.mp hremove
    obtain ⟨u, -, hremove⟩ := kernel_bind_eq_ok.mp hremove
    cases hremove
    cases hset
    exact ⟨List.suffix_cons _ _, rfl, rfl, hfalls.ethread⟩
  · cases hremove
    exact ⟨List.suffix_refl _, rfl, rfl, hfalls.ethread⟩

end Log

/-! ## A thread of the process does not get through -/

section Member

variable {m : PsMachine τ} {x x' : ExitMachine τ} {p : UInt32} {t : τ} {returned : Bool} {irql : Nat}

/-- The lock of the process cannot be acquired again. -/
theorem psCloseThread_held {s s' : Ps τ} {current : τ} {currentProcess : UInt32} {state : THREAD_STATE}
    (hlock : (s.eprocess (s.ethread t).ThreadsProcess).ProcessLock = .heldBy current irql) :
    psCloseThread current currentProcess state t s ≠ .ok s' := by
  intro hrun
  obtain ⟨_, -, hrun⟩ := kernel_bind_eq_ok.mp hrun
  obtain ⟨_, -, hrun⟩ := kernel_bind_eq_ok.mp hrun
  obtain ⟨_, -, hrun⟩ := kernel_bind_eq_ok.mp hrun
  obtain ⟨_, -, hrun⟩ := kernel_bind_eq_ok.mp hrun
  obtain ⟨_, -, hrun⟩ := kernel_bind_eq_ok.mp hrun
  split at hrun
  · cases hrun
  · obtain ⟨lock, hacquire, -⟩ := kernel_bind_eq_ok.mp hrun
    obtain ⟨_, hcheck, -⟩ := kernel_bind_eq_ok.mp hacquire
    change keAcquireSpinLockCheck DISPATCH_LEVEL current
      (s.eprocess (s.ethread t).ThreadsProcess).ProcessLock = _ at hcheck
    rw [hlock] at hcheck
    simp [keAcquireSpinLockCheck, KSPIN_LOCK.heldBy, assert] at hcheck

/-- **A thread of the process that is passed while its lock is held** does not get through: if it is ready
or running, the first checks fail, and otherwise `PsCloseThread` fails. -/
theorem psExitThread_member (hne : t ≠ x.machine.current)
    (hlock : (x.machine.ps.eprocess p).ProcessLock = .heldBy x.machine.current irql)
    (ht : (x.machine.sched.tcb t).State = .READY ∨ (x.machine.sched.tcb t).State = .RUNNING
      ∨ (x.machine.ps.ethread t).header = createdHeader .OBJECT_TYPE_THREAD
        ∧ (x.machine.ps.ethread t).ThreadsProcess = p) :
    psExitThreadOf (some t) x ≠ .ok (returned, x') := by
  intro hrun
  unfold psExitThreadOf at hrun
  dsimp only at hrun
  split at hrun
  · rename_i heq
    exact hne heq
  · obtain ⟨u, hrunning, hrun⟩ := kernel_bind_eq_ok.mp hrun
    obtain ⟨m, hpull, hrun⟩ := kernel_bind_eq_ok.mp hrun
    obtain ⟨m', hmark, hrun⟩ := kernel_bind_eq_ok.mp hrun
    obtain ⟨ps, hclose, -⟩ := kernel_bind_eq_ok.mp hrun
    have hrunning' := assert_eq_ok.mp hrunning
    unfold pullOut at hpull
    split at hpull
    · -- the check of the state in `KiStandbyThread` never succeeds
      rename_i hready
      obtain ⟨sched, hstandby, -⟩ := kernel_bind_eq_ok.mp hpull
      change (x.machine.sched.tcb t).State = .READY at hready
      change kiStandbyThread t x.machine.sched = .ok sched at hstandby
      simp [kiStandbyThread, hready] at hstandby
      cases hstandby
    · rename_i hready
      cases hpull
      obtain ⟨hheader, hprocess⟩ := (ht.resolve_left hready).resolve_left hrunning'
      -- what is signalled does not matter to the object and to the lock
      have hsame : m'.current = x.machine.current ∧ m'.ps.eprocess = x.machine.ps.eprocess
          ∧ (m'.ps.ethread t).header = (x.machine.ps.ethread t).header
          ∧ (m'.ps.ethread t).ThreadsProcess = (x.machine.ps.ethread t).ThreadsProcess := by
        unfold markTerminated at hmark
        split at hmark
        · obtain ⟨ps', hrelease, hmark⟩ := kernel_bind_eq_ok.mp hmark
          obtain ⟨u', -, hrelease⟩ := kernel_bind_eq_ok.mp hrelease
          cases hrelease
          cases hmark
          simp [Ps.modifyThread, ExitMachine.record, PsMachine.current]
        · cases hmark
          exact ⟨rfl, rfl, rfl, rfl⟩
      obtain ⟨hcurrent, heprocess, hheader', hprocess'⟩ := hsame
      change obDereferenceThread m'.current m'.currentProcess _ t m'.ps = _ at hclose
      rw [obDereferenceThread_eq (hheader'.trans hheader)] at hclose
      obtain ⟨closed, hclosed, -⟩ := kernel_bind_eq_ok.mp hclose
      have hdropped : ((m'.ps.threadDropped t).ethread t).ThreadsProcess = p :=
        ((m'.ps.threadDropped_shape t).ethread t).2.1.trans (hprocess'.trans hprocess)
      have hheld : ((m'.ps.threadDropped t).eprocess
          ((m'.ps.threadDropped t).ethread t).ThreadsProcess).ProcessLock
          = .heldBy m'.current irql := by
        rw [hdropped, hcurrent]
        show (m'.ps.eprocess p).ProcessLock = _
        rw [heprocess]
        exact hlock
      exact psCloseThread_held hheld hclosed

/-- **A call that does not return** is one for the current thread. -/
theorem psExitThreadOf_stays {thread : Option τ}
    (hrun : psExitThreadOf thread x = .ok (returned, x')) :
    (returned = true ∧ ∃ y, y ≠ x.machine.current ∧ thread = some y)
      ∨ returned = false ∧ (thread = none ∨ thread = some x.machine.current)
        ∧ x'.log = .exit thread :: x.log
        ∧ ∀ y, (x'.machine.ps.ethread y).Flags = (x.machine.ps.ethread y).Flags := by
  unfold psExitThreadOf at hrun
  dsimp only at hrun
  split at hrun
  · rename_i heq
    obtain ⟨m, hexit, hrun⟩ := kernel_bind_eq_ok.mp hrun
    cases hrun
    refine Or.inr ⟨rfl, ?_, rfl, fun y => ?_⟩
    · cases thread with
      | none => exact Or.inl rfl
      | some y => exact Or.inr (congrArg some heq)
    · obtain ⟨u, -, hexit⟩ := kernel_bind_eq_ok.mp hexit
      obtain ⟨ps, hrelease, hexit⟩ := kernel_bind_eq_ok.mp hexit
      obtain ⟨sched, -, hexit⟩ := kernel_bind_eq_ok.mp hexit
      cases hexit
      obtain ⟨u', -, hrelease⟩ := kernel_bind_eq_ok.mp hrelease
      cases hrelease
      show (Function.update x.machine.ps.ethread x.machine.current _ y).Flags = _
      by_cases hy : y = x.machine.current
      · subst hy
        rw [Function.update_self]
        rfl
      · rw [Function.update_of_ne hy]
  · rename_i hne
    obtain ⟨u, -, hrun⟩ := kernel_bind_eq_ok.mp hrun
    obtain ⟨m, -, hrun⟩ := kernel_bind_eq_ok.mp hrun
    obtain ⟨m', -, hrun⟩ := kernel_bind_eq_ok.mp hrun
    obtain ⟨ps, -, hrun⟩ := kernel_bind_eq_ok.mp hrun
    cases hrun
    cases thread with
    | none => exact absurd rfl hne
    | some y => exact Or.inl ⟨rfl, y, hne, rfl⟩

/-- **The thread cannot be terminated by somebody else** while the lock of the process is held. -/
def Resists (m : PsMachine τ) (p : UInt32) (t : τ) : Prop :=
  (m.sched.tcb t).State = .READY ∨ (m.sched.tcb t).State = .RUNNING
    ∨ (m.ps.ethread t).header = createdHeader .OBJECT_TYPE_THREAD
      ∧ (m.ps.ethread t).ThreadsProcess = p

/-- **A loop that meets another thread than the current one** passes something that is no thread of the
process, or ends with the current thread. -/
theorem exitThreads_foreign {exitedThread : Nat → Option τ} {rounds round : Nat}
    {lastThread : Option τ} {result : Option (Option τ)} {l : List τ} {t₀ : τ}
    (hrun : exitThreads p exitedThread rounds round lastThread x = .ok (result, x'))
    (hlock : (x.machine.ps.eprocess p).ProcessLock = .heldBy x.machine.current irql)
    (hl : ∀ t ∈ l, t ≠ x.machine.current → Resists x.machine p t)
    (ht₀ : t₀ ∈ (x.machine.ps.eprocess p).ThreadListHead) (hne : t₀ ≠ x.machine.current) :
    (∃ y, y ∉ l ∧ some y ∈ x'.passed)
      ∨ result = none ∧ ∃ a, x'.passed = a :: x.passed ∧ (a = none ∨ a = some x.machine.current) := by
  induction rounds generalizing round lastThread x with
  | zero =>
    unfold exitThreads at hrun
    split at hrun
    · rename_i hnil
      rw [hnil] at ht₀
      exact absurd ht₀ List.not_mem_nil
    · cases hrun
  | succ rounds ih =>
    unfold exitThreads at hrun
    split at hrun
    · rename_i hnil
      rw [hnil] at ht₀
      exact absurd ht₀ List.not_mem_nil
    · rename_i next rest hlist
      rw [hlist] at ht₀
      let x₁ := (x.setPs (x.machine.ps.modifyProcess p fun e => { e with ThreadListHead := rest })).record
        (.removeThread next p true)
      have hself : x₁.machine.ps.eprocess p
          = { x.machine.ps.eprocess p with ThreadListHead := rest } := Function.update_self ..
      have hlock₁ : (x₁.machine.ps.eprocess p).ProcessLock = .heldBy x₁.machine.current irql := by
        rw [hself]
        exact hlock
      dsimp only at hrun
      split at hrun
      · obtain ⟨⟨returned, x₂⟩, hexit, hrun⟩ := kernel_bind_eq_ok.mp hrun
        change psExitThreadOf (exitedThread round) x₁ = _ at hexit
        rcases psExitThreadOf_stays hexit with ⟨rfl, y, hy, heq⟩ | ⟨rfl, hself, hlog, -⟩
        · -- the call returns: what it got is no thread of the process
          refine Or.inl ⟨y, fun hyl => ?_, ?_⟩
          · rw [heq] at hexit
            exact psExitThread_member hy hlock₁ (hl y hyl hy) hexit
          · refine passed_subset (exitThreads_log hrun) ?_
            refine passed_subset (x := x₁.record (.exit (exitedThread round)))
              (psExitThreadOf_log hexit) ?_
            rw [heq]
            exact List.mem_cons_self
        · cases hrun
          refine Or.inr ⟨rfl, exitedThread round, ?_, hself⟩
          rw [ExitMachine.passed, hlog]
          rfl
      · rename_i hcurrent
        have hcurrent' : next = x.machine.current := not_not.mp hcurrent
        refine ih (x := x₁) hrun hlock₁ hl ?_ hne
        rw [hself]
        exact (List.mem_cons.mp ht₀).resolve_left fun heq => hne (heq.trans hcurrent')

/-- **A loop that meets the current thread only** passes nothing. -/
theorem exitThreads_self {exitedThread : Nat → Option τ} {rounds round : Nat}
    {lastThread : Option τ} {result : Option (Option τ)}
    (hrun : exitThreads p exitedThread rounds round lastThread x = .ok (result, x'))
    (hself : ∀ t ∈ (x.machine.ps.eprocess p).ThreadListHead, t = x.machine.current) :
    x'.machine.ps.ethread = x.machine.ps.ethread := by
  induction rounds generalizing round lastThread x with
  | zero =>
    unfold exitThreads at hrun
    split at hrun
    · cases hrun
      rfl
    · cases hrun
  | succ rounds ih =>
    unfold exitThreads at hrun
    split at hrun
    · cases hrun
      rfl
    · rename_i next rest hlist
      rw [hlist] at hself
      dsimp only at hrun
      split at hrun
      · rename_i hcurrent
        exact absurd (hself next List.mem_cons_self) hcurrent
      · refine (ih hrun fun t ht => hself t ?_).trans rfl
        refine List.mem_cons_of_mem next ?_
        simpa [ExitMachine.record, ExitMachine.setPs, Ps.modifyProcess] using ht

end Member

/-! ## The whole routine -/

section Whole

variable {boot idle : τ} {sys p : UInt32} {x x' : ExitMachine τ} {exitedThread : Nat → Option τ}

/-- **What comes before the loop** leaves the threads alone and acquires the lock. -/
theorem beginExit_ok (hrun : beginExit p x = .ok x') (hlock : (x.machine.ps.eprocess p).ProcessLock = .free) :
    x'.machine.sched = x.machine.sched ∧ x'.machine.ps.ethread = x.machine.ps.ethread
      ∧ (x'.machine.ps.eprocess p).ThreadListHead = (x.machine.ps.eprocess p).ThreadListHead
      ∧ (x'.machine.ps.eprocess p).ProcessLock = .heldBy x.machine.current PASSIVE_LEVEL
      ∧ x'.log = x.log := by
  obtain ⟨_, -, hrun⟩ := kernel_bind_eq_ok.mp hrun
  obtain ⟨_, -, hrun⟩ := kernel_bind_eq_ok.mp hrun
  obtain ⟨_, -, hrun⟩ := kernel_bind_eq_ok.mp hrun
  obtain ⟨_, -, hrun⟩ := kernel_bind_eq_ok.mp hrun
  obtain ⟨_, -, hrun⟩ := kernel_bind_eq_ok.mp hrun
  obtain ⟨x₁, hrelease, hrun⟩ := kernel_bind_eq_ok.mp hrun
  obtain ⟨_, -, hrelease⟩ := kernel_bind_eq_ok.mp hrelease
  cases hrelease
  obtain ⟨header, -, hrun⟩ := kernel_bind_eq_ok.mp hrun
  rw [hlock, keAcquireSpinLock_free (by decide), kernel_ok_bind] at hrun
  cases hrun
  refine ⟨rfl, rfl, ?_, ?_, rfl⟩
  · simp [ExitMachine.setPs, Ps.modifyProcess]
  · simp [ExitMachine.setPs, Ps.modifyProcess]

/-- The threads of a process cannot be terminated by somebody else while its lock is held. -/
theorem resists_of_listed {m : PsMachine τ} {t : τ} (hinv : m.Inv boot idle sys)
    (hlisted : m.ps.Listed boot) (hp : p ∈ m.ps.processes)
    (ht : t ∈ (m.ps.eprocess p).ThreadListHead) : Resists m p t := by
  obtain ⟨hmem, hprocess⟩ := (hlisted.threads p hp t).mp ht
  rcases Finset.mem_insert.mp hmem with rfl | hmem
  · rcases hinv.runnable.1 with hready | hrunning
    · exact Or.inl hready
    · exact Or.inr (Or.inl hrunning)
  · exact Or.inr (Or.inr ⟨(hinv.opened t hmem).2, hprocess⟩)

/-- Whoever is the only thread on the list of its process is a thread object. -/
theorem only_thread {m : PsMachine τ} (hinv : m.Inv boot idle sys) (hlisted : m.ps.Listed boot)
    (hp : p ∈ m.ps.processes) {t : τ} (ht : t ∈ (m.ps.eprocess p).ThreadListHead)
    (honly : ∀ t' ∈ (m.ps.eprocess p).ThreadListHead, t' = t) : t ∈ m.ps.threads := by
  obtain ⟨hmem, hprocess⟩ := (hlisted.threads p hp t).mp ht
  refine (Finset.mem_insert.mp hmem).resolve_left ?_
  -- the first thread of the system has the idle thread beside it
  rintro rfl
  obtain ⟨hidle, -, hidleprocess⟩ := Ps.mem_openThreads.mp hinv.ps.idleThread
  refine hinv.ne (honly idle ((hlisted.threads p hp idle).mpr ⟨Finset.mem_insert_of_mem hidle, ?_⟩))
  rw [hidleprocess, ← hprocess, hinv.bootProcess]

/-- **What follows the loop** adds to the log and keeps the flags of the threads. -/
theorem afterLoop {returned : Bool} {last : Option (Option τ)}
    (hrun : (match last with
      | none => (return (false, x) : Kernel (Bool × ExitMachine τ))
      | some lastThread => do
        let x ← endExit p x
        match lastThread with
        | none => return (true, x)
        | some t => do
          assert (t = x.machine.current) "LastThread == CurrentThread"
          psExitThreadOf (some t) x) = .ok (returned, x')) :
    x.log <:+ x'.log ∧ (last = none → x' = x)
      ∧ ∀ y, (x'.machine.ps.ethread y).Flags = (x.machine.ps.ethread y).Flags := by
  cases last with
  | none =>
    cases hrun
    exact ⟨List.suffix_refl _, fun _ => rfl, fun _ => rfl⟩
  | some lastThread =>
    obtain ⟨x₁, hend, hrun⟩ := kernel_bind_eq_ok.mp hrun
    obtain ⟨hlog, -, -, hethread⟩ := endExit_log hend
    cases lastThread with
    | none =>
      cases hrun
      exact ⟨hlog, fun h => (by cases h), fun y => by rw [hethread]⟩
    | some t =>
      obtain ⟨u, hself, hexit⟩ := kernel_bind_eq_ok.mp hrun
      refine ⟨hlog.trans ((List.suffix_cons _ _).trans (psExitThreadOf_log hexit)),
        fun h => (by cases h), fun y => ?_⟩
      rcases psExitThreadOf_stays hexit with ⟨-, y', hy', heq⟩ | ⟨-, -, -, hflags⟩
      · exact absurd (assert_eq_ok.mp hself) (Option.some.inj heq ▸ hy')
      · rw [hflags, hethread]

/-- **Where the routine does what it should**, the process has no threads. -/
theorem empty_of_exitsOnce (hinv : x.machine.Inv boot idle sys) (hlisted : x.machine.ps.Listed boot)
    (hp : p ∈ x.machine.ps.processes) (hlog : x.log = [])
    (h : ExitsOnce p x (pspExitProcess exitedThread p x)) :
    (x.machine.ps.eprocess p).ThreadListHead = [] := by
  obtain ⟨returned, x', hrun, hperm, -, hempty, -, -, hpending⟩ := h
  obtain ⟨x₁, hbegin, hrun⟩ := kernel_bind_eq_ok.mp hrun
  obtain ⟨⟨last, x₂⟩, hloop, hrun⟩ := kernel_bind_eq_ok.mp hrun
  obtain ⟨hsched, hethread, hlist, hlock, hlog₁⟩ := beginExit_ok hbegin (hinv.locks p hp)
  obtain ⟨hlog₂, hstop, hflags⟩ := afterLoop hrun
  have hcurrent : x₁.machine.current = x.machine.current := congrArg Sched.CurrentThread hsched
  have hpassed₁ : x₁.passed = [] := by rw [ExitMachine.passed, hlog₁, hlog]; rfl
  by_cases hforeign : ∃ t₀ ∈ (x.machine.ps.eprocess p).ThreadListHead, t₀ ≠ x.machine.current
  · exfalso
    obtain ⟨t₀, ht₀, hne⟩ := hforeign
    have hresist : ∀ t ∈ (x.machine.ps.eprocess p).ThreadListHead,
        t ≠ x₁.machine.current → Resists x₁.machine p t := by
      intro t ht _
      have hresists := resists_of_listed hinv hlisted hp ht
      simpa only [Resists, hsched, hethread] using hresists
    rcases exitThreads_foreign hloop (by rw [hlock, hcurrent]) hresist
      (by rw [hlist]; exact ht₀) (by rw [hcurrent]; exact hne) with ⟨y, hy, hpassed⟩ | ⟨hnone, a, hpassed, ha⟩
    · obtain ⟨z, hz, heq⟩ := List.mem_map.mp (hperm.subset (passed_subset hlog₂ hpassed))
      exact hy (Option.some.inj heq ▸ hz)
    · obtain rfl := hstop hnone
      have hmem : some t₀ ∈ x'.passed := hperm.symm.subset (List.mem_map_of_mem ht₀)
      rw [hpassed, hpassed₁, List.mem_singleton] at hmem
      rw [← hmem, hcurrent] at ha
      rcases ha with ha | ha
      · cases ha
      · exact hne (Option.some.inj ha)
  · -- the calling thread is alone: `PsCloseThread` will look for it on the list
    by_contra hne
    obtain ⟨t, rest, hcons⟩ := List.exists_cons_of_ne_nil hne
    have honly : ∀ t' ∈ (x.machine.ps.eprocess p).ThreadListHead, t' = x.machine.current := by
      intro t' ht'
      by_contra hother
      exact hforeign ⟨t', ht', hother⟩
    have ht : t ∈ (x.machine.ps.eprocess p).ThreadListHead := by
      rw [hcons]
      exact List.mem_cons_self
    obtain rfl := honly t ht
    have hthread := only_thread hinv hlisted hp ht honly
    have hself := exitThreads_self hloop (by rw [hlist, hcurrent]; exact honly)
    have hset : (x'.machine.ps.ethread x.machine.current).Flags &&& THREAD_FLAG_INSERTED ≠ 0 := by
      rw [hflags, hself, hethread, hinv.ps.flags _ hthread (hinv.opened _ hthread).1]
      decide
    have hmem := hpending _ ht hset
    rw [hempty] at hmem
    exact List.not_mem_nil hmem

/-- The header of a process that `PspExitProcess` has referenced. -/
def referencedHeader : OBJECT_HEADER := { createdHeader .OBJECT_TYPE_PROCESS with RefCount := 2 }

/-- **A process that has been created** passes the checks before the loop. -/
theorem beginExit_created (hactive : x.Active p)
    (hheader : (x.machine.ps.eprocess p).header = createdHeader .OBJECT_TYPE_PROCESS)
    (hflags : (x.machine.ps.eprocess p).Flags = processFlags)
    (hlock : (x.machine.ps.eprocess p).ProcessLock = .free) :
    beginExit p x = .ok ({ x with
        State := Function.update x.State p .TERMINATED
        SignalState := Function.update x.SignalState p 1 }.setPs
      (x.machine.ps.modifyProcess p fun e => { e with
        header := referencedHeader, ProcessLock := .heldBy x.machine.current PASSIVE_LEVEL })) := by
  have hmagic : (createdHeader .OBJECT_TYPE_PROCESS).Magic = OBJECT_HEADER_MAGIC := rfl
  have hstate : x.State p ≠ .TERMINATED := by
    rw [hactive.state]
    exact PROCESS_STATE.noConfusion
  have hfirst : processFlags &&& PROCESS_FLAG_CLEANUP_MASK &&& PROCESS_FLAG_FIRST_THREAD_CREATED ≠ 0 := by
    decide
  have hinserted : processFlags &&& PROCESS_FLAG_CLEANUP_MASK &&& PROCESS_FLAG_INSERTED ≠ 0 := by
    decide
  have hallocated : processFlags &&& PROCESS_FLAG_CLEANUP_MASK &&& PROCESS_FLAG_ALLOCATED ≠ 0 := by
    decide
  have hreference : referenceHeader (createdHeader .OBJECT_TYPE_PROCESS) = .ok referencedHeader := rfl
  simp only [beginExit, hheader, hflags, hlock, assert_of_true hmagic, assert_of_true hstate,
    assert_of_true hfirst, assert_of_true hinserted, assert_of_true hallocated, kernel_ok_bind,
    ExitMachine.keReleaseNotificationDHeader, assert_of_true hactive.signal, pure_bind, hreference,
    keAcquireSpinLock_free (show PASSIVE_LEVEL ≤ DISPATCH_LEVEL by decide)]
  rfl

/-- Dropping one of two references. -/
theorem dereferenceHeader_referenced :
    dereferenceHeader referencedHeader = .ok (createdHeader .OBJECT_TYPE_PROCESS, false) := rfl

/-- **Behind the loop** a process without threads leaves the list of active processes. -/
theorem endExit_created (hstate : x.State p = .TERMINATED)
    (hheader : (x.machine.ps.eprocess p).header = referencedHeader)
    (hflags : (x.machine.ps.eprocess p).Flags = processFlags)
    (hlock : (x.machine.ps.eprocess p).ProcessLock = .heldBy x.machine.current PASSIVE_LEVEL) :
    ∃ x', endExit p x = .ok x'
      ∧ x'.log = .removeProcess p (p ∈ x.PsActiveProcessHead) :: x.log
      ∧ x'.PsActiveProcessHead = x.PsActiveProcessHead.erase p
      ∧ (x'.machine.ps.eprocess p).ThreadListHead = (x.machine.ps.eprocess p).ThreadListHead := by
  have hinserted : processFlags &&& ~~~PROCESS_FLAG_FIRST_THREAD_CREATED &&& PROCESS_FLAG_CLEANUP_MASK
      &&& PROCESS_FLAG_INSERTED ≠ 0 := by decide
  simp only [endExit, hlock, keReleaseProcessLock_heldBy, kernel_ok_bind, removeInserted,
    ExitMachine.setPs, Ps.modifyProcess, Function.update_self, hflags, if_pos hinserted,
    pspRemoveProcess, hstate, assert_of_true, pure_bind, ExitMachine.record, obDereferenceProcess,
    Ps.useProcess, Ps.record, hheader, dereferenceHeader_referenced]
  exact ⟨_, rfl, rfl, rfl, by simp⟩

/-- **A process without threads** leaves in good order. -/
theorem exitsOnce_of_empty (hinv : x.machine.Inv boot idle sys) (hlisted : x.machine.ps.Listed boot)
    (hp : p ∈ x.machine.ps.processes) (hactive : x.Active p)
    (hempty : (x.machine.ps.eprocess p).ThreadListHead = []) :
    ExitsOnce p x (pspExitProcess exitedThread p x) := by
  have hsys : p ≠ sys := by
    rintro rfl
    have hboot := (hlisted.threads p hp boot).mpr ⟨Finset.mem_insert_self .., hinv.bootProcess⟩
    rw [hempty] at hboot
    exact List.not_mem_nil hboot
  obtain ⟨hheader, hflags, -⟩ := hinv.ps.ordinary p (hinv.alive p hp) hsys
  have hbegin := beginExit_created hactive hheader hflags (hinv.locks p hp)
  generalize hx₁ : ExitMachine.setPs _ _ = x₁ at hbegin
  have hself : x₁.machine.ps.eprocess p = { x.machine.ps.eprocess p with
      header := referencedHeader, ProcessLock := .heldBy x.machine.current PASSIVE_LEVEL } := by
    subst hx₁
    exact Function.update_self ..
  have hlist₁ : (x₁.machine.ps.eprocess p).ThreadListHead = [] := by
    rw [hself]
    exact hempty
  obtain ⟨x₂, hend, hlog, hactive₂, hlist₂⟩ := endExit_created (x := x₁) (p := p)
    (by subst hx₁; exact Function.update_self ..) (by rw [hself])
    (by rw [hself]; exact hflags) (by rw [hself]; subst hx₁; rfl)
  have hlog₂ : x₂.log = [.removeProcess p true] := by
    subst hx₁
    have hlog₁ : x₂.log = .removeProcess p (p ∈ x.PsActiveProcessHead) :: x.log := hlog
    simpa only [hactive.member, hactive.log, decide_true] using hlog₁
  have hremoved : p ∉ x₂.PsActiveProcessHead := by
    rw [hactive₂]
    subst hx₁
    exact fun hmem => (hactive.nodup.mem_erase_iff.mp hmem).1 rfl
  refine ⟨true, x₂, ?_, ?_, ?_, hlist₂.trans hlist₁, hremoved, ?_, ?_⟩
  · simp only [pspExitProcess, hbegin, kernel_ok_bind, hlist₁, List.length_nil, exitThreads, if_true,
      hend]
    rfl
  · rw [hempty, ExitMachine.passed, hlog₂]
    exact List.Perm.nil
  · rw [hempty]
    exact fun hmem => absurd hmem List.not_mem_nil
  · rw [ExitMachine.RemovesMembers, hlog₂]
    intro a ha
    obtain rfl := List.mem_singleton.mp ha
    rfl
  · rw [hempty]
    exact fun t hmem => absurd hmem List.not_mem_nil

/-- **The routine does what it should if and only if the process has no threads**, whoever calls it and
whatever the variable `ExitedThread` contains. -/
theorem exit_process_iff {tr : List (PsEvent τ × PsMachine τ)} {m : PsMachine τ}
    (h : (psSystem boot idle sys).Run tr m) (hx : x.machine = m) (hp : p ∈ m.ps.processes)
    (hactive : x.Active p) :
    ExitsOnce p x (pspExitProcess exitedThread p x) ↔ (m.ps.eprocess p).ThreadListHead = [] := by
  subst hx
  have hinv := psSystem_inv h
  have hlisted := psSystem_listed h
  exact ⟨empty_of_exitsOnce hinv hlisted hp hactive.log,
    exitsOnce_of_empty hinv hlisted hp hactive⟩

end Whole

/-! ## Children of the first threads -/

/-- The machine with the processes 8 and 4 on the list of active processes. -/
def activeProcesses (machine : PsMachine (Fin 4)) : ExitMachine (Fin 4) where
  machine := machine
  PsActiveProcessHead := [8, 4]
  State _ := .ACTIVE
  SignalState _ := 0
  log := []

/-- The process 8 is active. -/
theorem activeProcesses_active (m : PsMachine (Fin 4)) : (activeProcesses m).Active 8 := by
  refine ⟨rfl, List.mem_cons_self, ?_, ?_, rfl⟩
  · exact List.nodup_cons.mpr ⟨by simp, List.nodup_singleton 4⟩
  · exact (by decide : (0 : Int) < MAX_DISPATCH_SIGNAL_STATE)

/-- **The only thread of the process is gone**, and a child has kept the process: it leaves in good
order. -/
theorem exit_process_iff_child : ∃ tr m, (psSystem (0 : Fin 4) 1 4).Run tr m
    ∧ ExitsOnce 8 (activeProcesses m) (pspExitProcess (fun _ => none) 8 (activeProcesses m)) := by
  obtain ⟨tr, m, hrun, hobserved⟩ := firstThreads_play
    [.createProcess 8 2 (.load true 16) 0, .schedule, .createProcess 12 3 (.load true 16) 0, .exit,
      .cleanUp]
    (fun _ m => decide (8 ∈ m.ps.processes) && decide ((m.ps.eprocess 8).ThreadListHead = []))
    (by decide +kernel)
  obtain ⟨hp, hempty⟩ := Bool.and_eq_true_iff.mp hobserved
  exact ⟨tr, m, hrun, (exit_process_iff hrun rfl (of_decide_eq_true hp)
    (activeProcesses_active m)).mpr (of_decide_eq_true hempty)⟩

/-- **A parent ends its child**, and `ExitedThread` contains `NULL`. -/
theorem exit_process_fails : ¬ ∀ (tr : List (PsEvent (Fin 4) × PsMachine (Fin 4)))
    (m : PsMachine (Fin 4)), (psSystem 0 1 4).Run tr m →
      ∀ x : ExitMachine (Fin 4), x.machine = m → ∀ p ∈ m.ps.processes, x.Active p →
        (m.ps.ethread m.current).ThreadsProcess = p
          ∨ (m.ps.ethread m.current).ThreadsProcess = (m.ps.eprocess p).Parent →
        ExitsOnce p x (pspExitProcess (fun _ => none) p x) := by
  intro hall
  obtain ⟨tr, m, hrun, hobserved⟩ := firstThreads_play [.createProcess 8 2 (.load true 16) 0]
    (fun _ m => decide (8 ∈ m.ps.processes) && decide ((m.ps.eprocess 8).ThreadListHead ≠ [])
      && decide ((m.ps.ethread m.current).ThreadsProcess = (m.ps.eprocess 8).Parent))
    (by decide +kernel)
  obtain ⟨hobserved, hparent⟩ := Bool.and_eq_true_iff.mp hobserved
  obtain ⟨hp, hmembers⟩ := Bool.and_eq_true_iff.mp hobserved
  have hp := of_decide_eq_true hp
  have hexits := hall tr m hrun (activeProcesses m) rfl 8 hp (activeProcesses_active m)
    (Or.inr (of_decide_eq_true hparent))
  exact of_decide_eq_true hmembers
    (empty_of_exitsOnce (psSystem_inv hrun) (psSystem_listed hrun) hp rfl hexits)

end KaushOS
