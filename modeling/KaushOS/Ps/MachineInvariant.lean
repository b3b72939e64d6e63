import KaushOS.Ps.Creation

/-! # Scheduler and process manager agree

The threads that the scheduler knows are the first thread of the system and the thread objects; each
of them runs in the process that it belongs to, and between the calls no lock is held.

* **`PsMachine.Inv`** — the invariant of the machine.
* **`PsMachine.Inv.createProcess`** and its like — what the calls do; **`PsMachine.Inv.cleanUp_some`**,
  **`PsMachine.Inv.cleanUp_guards`** — when a thread can be cleaned up.
* **`psSystem_inv`** — the invariant holds in every run. -/

namespace KaushOS

open CircularList Transition

variable {τ : Type} [DecidableEq τ] {boot idle t : τ} {sys p : UInt32} {m m' : PsMachine τ}

/-- **The invariant of the machine.** -/
structure PsMachine.Inv (boot idle : τ) (sys : UInt32) (m : PsMachine τ) : Prop where
  sched : SchedInvariant ⟨m.sched, m.live⟩ m.sched.dispatcher
  ps : PsInvariant idle sys noDebt m.ps
  live : m.live = insert boot m.ps.threads
  bootThread : boot ∉ m.ps.threads
  bootProcess : (m.ps.ethread boot).ThreadsProcess = sys
  ne : idle ≠ boot
  opened : ∀ t ∈ m.ps.threads, (m.ps.ethread t).Flags ≠ 0
    ∧ (m.ps.ethread t).header = createdHeader .OBJECT_TYPE_THREAD
  process : ∀ t ∈ m.live, (m.sched.tcb t).ThreadProcess = (m.ps.ethread t).ThreadsProcess
  alive : ∀ q ∈ m.ps.processes, q ∈ m.ps.alive
  locks : ∀ q ∈ m.ps.processes, (m.ps.eprocess q).ProcessLock = .free
  lock : m.ps.DispatcherDataBaseLock = .free
  runnable : m.sched.dispatcher.Runnable boot ∧ m.sched.dispatcher.Runnable idle

/-! ## Small facts -/

/-- **A step of the scheduler** that returns does what its abstract counterpart does. -/
theorem schedStep_ok {s s' : Sched τ} {live : Finset τ} {e : SchedEvent τ}
    (h : SchedInvariant ⟨s, live⟩ s.dispatcher) (he : e.Enabled ⟨s, live⟩)
    (hrun : schedStep e s = .ok s') :
    SchedInvariant ⟨s', e.liveAfter live⟩ s'.dispatcher
      ∧ s'.dispatcher = s.dispatcher.step e := by
  have hstep : (schedSystem none).step [] ⟨s, live⟩ (e, ⟨s, live⟩) ⟨s', e.liveAfter live⟩ :=
    ⟨rfl, he, hrun, rfl⟩
  exact schedInvariant_step h hstep

/-- The first thread of the system and the idle thread exist. -/
theorem PsMachine.Inv.mem_live (h : m.Inv boot idle sys) : boot ∈ m.live ∧ idle ∈ m.live := by
  rw [h.live]
  exact ⟨Finset.mem_insert_self .., Finset.mem_insert_of_mem (Ps.mem_openThreads.mp h.ps.idleThread).1⟩

/-- The current thread exists. -/
theorem PsMachine.Inv.current_live (h : m.Inv boot idle sys) : m.current ∈ m.live :=
  h.sched.running.1

/-- The current process is the one that the current thread belongs to. -/
theorem PsMachine.Inv.currentProcess_eq (h : m.Inv boot idle sys) :
    m.currentProcess = (m.ps.ethread m.current).ThreadsProcess :=
  h.process _ h.current_live

/-- A thread object is not the first thread of the system. -/
theorem PsMachine.Inv.ne_boot (h : m.Inv boot idle sys) (ht : t ∈ m.ps.threads) : t ≠ boot := by
  rintro rfl
  exact h.bootThread ht

/-- Every thread that exists belongs to a process that is alive. -/
theorem PsMachine.Inv.process_alive (h : m.Inv boot idle sys) (ht : t ∈ m.live) :
    (m.ps.ethread t).ThreadsProcess ∈ m.ps.alive := by
  rw [h.live] at ht
  rcases Finset.mem_insert.mp ht with rfl | ht
  · rw [h.bootProcess]
    exact h.ps.system
  · exact h.ps.threadProcess t ht (h.opened t ht).1

/-- The current process is allocated. -/
theorem PsMachine.Inv.currentProcess_mem (h : m.Inv boot idle sys) :
    m.currentProcess ∈ m.ps.processes := by
  rw [h.currentProcess_eq]
  exact Ps.mem_processes_of_alive (h.process_alive h.current_live)

/-- A thread that does not run does not matter to the process of another one: the process of the
current thread has an open thread besides it. -/
theorem PsMachine.Inv.other_open (h : m.Inv boot idle sys) (hidle : idle ≠ t)
    (hcurrent : m.current ≠ t) :
    ((m.ps.openThreads (m.ps.ethread m.current).ThreadsProcess).erase t).Nonempty := by
  have hlive := h.current_live
  rw [h.live] at hlive
  rcases Finset.mem_insert.mp hlive with hboot | hmem
  · -- the first thread of the system shares its process with the idle thread
    refine ⟨idle, Finset.mem_erase.mpr ⟨hidle, ?_⟩⟩
    rw [hboot, h.bootProcess]
    exact h.ps.idleThread
  · exact ⟨m.current, Finset.mem_erase.mpr
      ⟨hcurrent, Ps.mem_openThreads.mpr ⟨hmem, (h.opened _ hmem).1, rfl⟩⟩⟩

/-! ## New threads and processes -/

/-- **A new thread is made ready**, when the process manager has set it up. -/
theorem PsMachine.Inv.startThread (h : m.Inv boot idle sys) {ps : Ps τ} {process : UInt32 → KPROCESS}
    (hps : PsInvariant idle sys noDebt ps) (ht : t ∉ m.live)
    (hthreads : ps.threads = insert t m.ps.threads)
    (hself : (ps.ethread t).ThreadsProcess = p ∧ (ps.ethread t).Flags = threadFlags
      ∧ (ps.ethread t).header = createdHeader .OBJECT_TYPE_THREAD)
    (hother : ∀ i, i ≠ t → ps.ethread i = m.ps.ethread i)
    (halive : ∀ q ∈ ps.processes, q ∈ ps.alive)
    (hlocks : ∀ q ∈ ps.processes, (ps.eprocess q).ProcessLock = .free)
    (hlock : ps.DispatcherDataBaseLock = .free)
    (hrun : PsMachine.startThread { m with sched := { m.sched with process } } t p ps = .ok m') :
    m'.Inv boot idle sys ∧ m'.ps = ps ∧ schedExited m'.sched = schedExited m.sched := by
  obtain ⟨sched, hsched, hrun⟩ := kernel_bind_eq_ok.mp hrun
  cases hrun
  have hinv : SchedInvariant ⟨{ m.sched with process }, m.live⟩
      ({ m.sched with process } : Sched τ).dispatcher :=
    ⟨⟨h.sched.rep.state, h.sched.rep.priority, h.sched.rep.current, h.sched.rep.lists⟩,
      h.sched.queued, h.sched.running⟩
  have he : (SchedEvent.create t PROCESS_PRIORITY_NORMAL p).Enabled
      ⟨{ m.sched with process }, m.live⟩ := ⟨ht, by decide, by decide⟩
  obtain ⟨hinv', hstep⟩ := schedStep_ok hinv he hsched
  obtain ⟨hboot, hidle⟩ := h.mem_live
  have hbt : boot ≠ t := fun e => ht (e ▸ hboot)
  have hnone : ∀ i, (SchedEvent.create t PROCESS_PRIORITY_NORMAL p).GivesUp →
      m.sched.dispatcher.current ≠ i := fun i hg => hg.elim
  refine ⟨⟨hinv', hps, ?_, ?_, ?_, h.ne, ?_, ?_, halive, hlocks, hlock, ?_⟩, rfl,
    congrArg Dispatcher.exited hstep⟩
  · show insert t m.live = insert boot ps.threads
    rw [h.live, hthreads, Finset.insert_comm]
  · show boot ∉ ps.threads
    rw [hthreads]
    exact fun hmem => (Finset.mem_insert.mp hmem).elim hbt h.bootThread
  · show (ps.ethread boot).ThreadsProcess = sys
    rw [hother boot hbt]
    exact h.bootProcess
  · intro i hi
    rw [hthreads] at hi
    by_cases hit : i = t
    · subst hit
      rw [hself.2.1]
      exact ⟨by decide, hself.2.2⟩
    · rw [hother i hit]
      exact h.opened i ((Finset.mem_insert.mp hi).resolve_left hit)
  · intro i hi
    have hf : ∀ i, (({ m.sched with process } : Sched τ).tcb i).ThreadProcess
        = (m.sched.tcb i).ThreadProcess := fun _ => rfl
    rw [pspCreateThread_threadProcess hsched hf]
    by_cases hit : i = t
    · subst hit
      rw [Function.update_self]
      exact hself.1.symm
    · rw [Function.update_of_ne hit, hother i hit]
      exact h.process i ((Finset.mem_insert.mp hi).resolve_left hit)
  · rw [hstep]
    exact ⟨h.runnable.1.step hboot he (hnone boot), h.runnable.2.step hidle he (hnone idle)⟩

/-- A thread that does not exist is no thread object. -/
theorem PsMachine.Inv.not_thread (h : m.Inv boot idle sys) (ht : t ∉ m.live) : t ∉ m.ps.threads := by
  intro hmem
  rw [h.live] at ht
  exact ht (Finset.mem_insert_of_mem hmem)

/-- **Creating a thread.** -/
theorem PsMachine.Inv.createThread (h : m.Inv boot idle sys) {signalState : Int}
    (hen : (PsEvent.createThread t p signalState).Enabled boot idle m)
    (hrun : (PsEvent.createThread t p signalState).run m = .ok m') :
    m'.Inv boot idle sys ∧ m.ps.ThreadAdded t p m'.ps
      ∧ schedExited m'.sched = schedExited m.sched := by
  obtain ⟨-, ht, hp⟩ := hen
  obtain ⟨ps, hcreate, hstart⟩ := kernel_bind_eq_ok.mp hrun
  have hadd := Ps.pspCreateThread_added hcreate hp (h.locks p hp) h.lock
  obtain ⟨hinv, rfl, hexited⟩ := h.startThread (h.ps.threadAdded hadd (h.not_thread ht) (h.alive p hp)) ht
    hadd.threads ⟨hadd.process, hadd.flags, hadd.header⟩ hadd.other
    (fun q hq => hadd.alive.symm ▸ h.alive q (hadd.processes ▸ hq))
    (fun q hq => hadd.locks fun _ => h.locks q (hadd.processes ▸ hq)) hadd.lock hstart
  exact ⟨hinv, hadd, hexited⟩

/-- **Creating a process** with its first thread. -/
theorem PsMachine.Inv.createProcess (h : m.Inv boot idle sys) {kind : ProcessKind}
    {signalState : Int} (hen : (PsEvent.createProcess p t kind signalState).Enabled boot idle m)
    (hrun : (PsEvent.createProcess p t kind signalState).run m = .ok m') :
    m'.Inv boot idle sys ∧ ∃ parent s, m.ps.ProcessAdded p parent s ∧ s.ThreadAdded t p m'.ps
      ∧ (parent ≠ NULL → parent ∈ m.ps.alive)
      ∧ schedExited m'.sched = schedExited m.sched := by
  obtain ⟨-, hnull, hp, ht, -⟩ := hen
  obtain ⟨ps, hcreate, hstart⟩ := kernel_bind_eq_ok.mp hrun
  obtain ⟨parent, s, hparent, hprocess, hthread⟩ :=
    psCreateProcess_added hcreate hp h.currentProcess_mem h.lock
  have hparentalive : parent ≠ NULL → parent ∈ m.ps.alive := by
    intro hne
    rw [hparent.resolve_left hne]
    exact h.alive _ h.currentProcess_mem
  have hinv := h.ps.processAdded hprocess hp hnull hparentalive
  have hps := hprocess.alive hp
  have hmem : ∀ q ∈ ps.processes, q = p ∨ q ∈ m.ps.processes := by
    intro q hq
    rw [hthread.processes, hprocess.processes] at hq
    exact Finset.mem_insert.mp hq
  have hpalive : p ∈ s.alive := hps ▸ Finset.mem_insert_self p _
  have ht' : t ∉ s.threads := hprocess.threads ▸ h.not_thread ht
  have halive : ∀ q ∈ ps.processes, q ∈ ps.alive := by
    intro q hq
    rw [hthread.alive, hps]
    rcases hmem q hq with rfl | hq
    · exact Finset.mem_insert_self ..
    · exact Finset.mem_insert_of_mem (h.alive q hq)
  have hlocks : ∀ q ∈ ps.processes, (ps.eprocess q).ProcessLock = .free := by
    intro q hq
    refine hthread.locks fun _ => hprocess.locks fun hqp => ?_
    exact h.locks q ((hmem q hq).resolve_left hqp)
  obtain ⟨hinv', rfl, hexited⟩ := h.startThread (hinv.threadAdded hthread ht' hpalive) ht
    (hprocess.threads ▸ hthread.threads) ⟨hthread.process, hthread.flags, hthread.header⟩
    (fun i hi => (hthread.other i hi).trans (congrFun hprocess.ethread i)) halive hlocks
    hthread.lock hstart
  exact ⟨hinv', parent, s, hprocess, hthread, hparentalive, hexited⟩

/-! ## The scheduler -/

/-- **A step of the scheduler between the calls** that keeps the threads. -/
theorem PsMachine.Inv.schedStep (h : m.Inv boot idle sys) {e : SchedEvent τ} {sched : Sched τ}
    {ps : Ps τ} {inSchedule : τ → Nat} (he : e.Enabled ⟨m.sched, m.live⟩)
    (hrun : schedStep e m.sched = .ok sched) (hlive : e.liveAfter m.live = m.live)
    (hgives : e.GivesUp → m.current ≠ boot ∧ m.current ≠ idle)
    (hprocess : ∀ i, (sched.tcb i).ThreadProcess = (m.sched.tcb i).ThreadProcess)
    (hshape : m.ps.SameShape ps) (heprocess : ps.eprocess = m.ps.eprocess)
    (hheader : ∀ i, (ps.ethread i).header = (m.ps.ethread i).header)
    (hlock : ps.DispatcherDataBaseLock = m.ps.DispatcherDataBaseLock) :
    ({ m with sched, ps, inSchedule } : PsMachine τ).Inv boot idle sys := by
  obtain ⟨hinv, hstep⟩ := schedStep_ok h.sched he hrun
  rw [hlive] at hinv
  obtain ⟨hboot, hidle⟩ := h.mem_live
  refine ⟨hinv, ?_, ?_, ?_, ?_, h.ne, fun i hi => ?_, fun i hi => ?_, fun q hq => ?_, fun q hq => ?_,
    hlock.trans h.lock, ?_⟩
  · exact h.ps.of_shape hshape (fun q _ => by rw [heprocess]) fun q _ => by rw [heprocess]
  · rw [hshape.threads]
    exact h.live
  · rw [hshape.threads]
    exact h.bootThread
  · rw [(hshape.ethread boot).2.1]
    exact h.bootProcess
  · rw [(hshape.ethread i).1, hheader]
    exact h.opened i (hshape.threads ▸ hi)
  · rw [hprocess, (hshape.ethread i).2.1]
    exact h.process i hi
  · rw [hshape.alive]
    exact h.alive q (hshape.processes ▸ hq)
  · rw [heprocess]
    exact h.locks q (hshape.processes ▸ hq)
  · rw [hstep]
    exact ⟨h.runnable.1.step hboot he fun hg => (hgives hg).1,
      h.runnable.2.step hidle he fun hg => (hgives hg).2⟩

/-- **`Schedule`** up to its clean-up loop. -/
theorem PsMachine.Inv.schedule (h : m.Inv boot idle sys) (hrun : PsEvent.schedule.run m = .ok m') :
    m'.Inv boot idle sys ∧ m'.ps = m.ps
      ∧ m'.sched.dispatcher = m.sched.dispatcher.step .schedule := by
  obtain ⟨sched, hsched, hrun⟩ := kernel_bind_eq_ok.mp hrun
  cases hrun
  have he : SchedEvent.schedule.Enabled ⟨m.sched, m.live⟩ := trivial
  refine ⟨h.schedStep he hsched rfl (fun hg => hg.elim) (fun i => ?_) ⟨rfl, rfl, rfl, rfl,
    fun _ => ⟨rfl, rfl, rfl⟩, fun _ => ⟨rfl, rfl, rfl, rfl, rfl⟩⟩ rfl (fun _ => rfl) rfl, rfl,
    (schedStep_ok h.sched he hsched).2⟩
  exact schedule_threadProcess hsched (fun _ => rfl) i

/-- A thread that signals its termination stays the same in all other respects. -/
theorem Ps.signalled_shape (s : Ps τ) (t : τ) : s.SameShape { s with
    ethread := Function.update s.ethread t { s.ethread t with SignalState := 1 } } where
  threads := rfl
  processes := rfl
  pid := rfl
  ptes := rfl
  ethread i := by
    by_cases hi : i = t
    · subst hi
      simp
    · simp [hi]
  eprocess _ := ⟨rfl, rfl, rfl, rfl, rfl⟩

/-- **The current thread terminates.** -/
theorem PsMachine.Inv.exit (h : m.Inv boot idle sys) (hen : PsEvent.exit.Enabled boot idle m)
    (hrun : PsEvent.exit.run m = .ok m') :
    m'.Inv boot idle sys
      ∧ m'.ps = { m.ps with
        ethread := Function.update m.ps.ethread m.current
          { m.ps.ethread m.current with SignalState := 1 } }
      ∧ m'.sched.dispatcher = m.sched.dispatcher.step (.exit []) := by
  obtain ⟨u, -, hrun⟩ := kernel_bind_eq_ok.mp hrun
  obtain ⟨ps, hrelease, hrun⟩ := kernel_bind_eq_ok.mp hrun
  obtain ⟨sched, hsched, hrun⟩ := kernel_bind_eq_ok.mp hrun
  obtain ⟨u, -, hrelease⟩ := kernel_bind_eq_ok.mp hrelease
  cases hrelease
  cases hrun
  have he : (SchedEvent.exit ([] : List τ)).Enabled ⟨m.sched, m.live⟩ :=
    ⟨List.nodup_nil, List.forall_mem_nil _⟩
  have hshape := m.ps.signalled_shape m.current
  refine ⟨h.schedStep he hsched rfl (fun _ => ⟨hen.2.1, hen.2.2⟩) (fun i => ?_) hshape rfl
    (fun i => ?_) rfl, rfl, (schedStep_ok h.sched he hsched).2⟩
  · exact psExitThread_threadProcess hsched (fun _ => rfl) i
  · by_cases hi : i = m.current
    · subst hi
      simp [Ps.modifyThread]
    · simp [Ps.modifyThread, hi]

/-! ## Cleaning up -/

/-- A thread that is to be cleaned up is a thread object, is terminated, and does not run. -/
theorem PsMachine.Inv.exited_thread (h : m.Inv boot idle sys) (ht : t ∈ schedExited m.sched) :
    t ∈ m.ps.threads ∧ (m.sched.tcb t).State = .TERMINATED ∧ m.current ≠ t ∧ idle ≠ t := by
  obtain ⟨hlive, hstate⟩ := h.sched.queued.exited_state t ht
  have hrunnable : ∀ i, m.sched.dispatcher.Runnable i → i ≠ t := by
    rintro i hi rfl
    rcases hi with hi | hi
    · rw [hstate] at hi
      cases hi
    · rw [hstate] at hi
      cases hi
  have hboot := hrunnable boot h.runnable.1
  refine ⟨?_, hstate, ?_, hrunnable idle h.runnable.2⟩
  · change t ∈ m.live at hlive
    rw [h.live] at hlive
    exact (Finset.mem_insert.mp hlive).resolve_left hboot.symm
  · exact hrunnable m.current (Or.inr h.sched.current_state)

/-- Taking the next thread off `ExitThreadList`. -/
theorem PsMachine.Inv.reap (h : m.Inv boot idle sys) :
    ∃ sched, kiReapThread m.sched = .ok ((schedExited m.sched).head?, sched)
      ∧ SchedInvariant ⟨sched, m.live⟩ sched.dispatcher
      ∧ sched.dispatcher = m.sched.dispatcher.reap
      ∧ (∀ i, (sched.tcb i).ThreadProcess = (m.sched.tcb i).ThreadProcess)
      ∧ ∀ i, (sched.tcb i).State = (m.sched.tcb i).State := by
  obtain ⟨sched, hrun, hrep⟩ := kiReapThread_spec h.sched.rep h.sched.queued
  have hdispatcher := hrep.eq_dispatcher
  refine ⟨sched, hrun, ?_, hdispatcher.symm, fun i => ?_, fun i => ?_⟩
  · rw [← hdispatcher]
    exact ⟨hrep, h.sched.queued.reap, h.sched.running⟩
  · exact kiReapThread_threadProcess hrun (fun _ => rfl) i
  · exact hrep.state i

/-- **The end of the clean-up loop.** -/
theorem PsMachine.Inv.cleanUp_none (h : m.Inv boot idle sys) (hnone : schedExited m.sched = []) :
    ∃ m', m.cleanUp = .ok m' ∧ m'.Inv boot idle sys ∧ m'.ps = m.ps
      ∧ m'.sched.dispatcher = m.sched.dispatcher.reap := by
  obtain ⟨sched, hrun, hinv, hdispatcher, hprocess, -⟩ := h.reap
  rw [hnone] at hrun
  refine ⟨{ m with
      sched, inSchedule := Function.update m.inSchedule m.current (m.inSchedule m.current - 1) },
    ?_, ⟨hinv, h.ps, h.live, h.bootThread, h.bootProcess, h.ne, h.opened,
    fun i hi => ?_, h.alive, h.locks, h.lock, ?_⟩, rfl, hdispatcher⟩
  · rw [PsMachine.cleanUp, hrun, kernel_ok_bind]
    rfl
  · exact (hprocess i).trans (h.process i hi)
  · show sched.dispatcher.Runnable boot ∧ sched.dispatcher.Runnable idle
    rw [hdispatcher]
    exact h.runnable

/-- **One thread is cleaned up**, if `PsCloseThread` finds what it needs. -/
theorem PsMachine.Inv.cleanUp_some (h : m.Inv boot idle sys)
    (hhead : (schedExited m.sched).head? = some t)
    (hg : CloseGuards m.current m.currentProcess .TERMINATED t m.ps) :
    ∃ m', m.cleanUp = .ok m' ∧ m'.Inv boot idle sys ∧ m.ps.ThreadGone sys t m'.ps
      ∧ ClosingLog t (m.ps.ethread t).ThreadsProcess
        ((m.ps.eprocess (m.ps.ethread t).ThreadsProcess).RundownProtect ≠ 1) m.ps m'.ps
      ∧ m'.sched.dispatcher = m.sched.dispatcher.reap := by
  have hmem := List.mem_of_mem_head? hhead
  obtain ⟨ht, hterminated, hcurrent, hidle⟩ := h.exited_thread hmem
  obtain ⟨hflags, hheader⟩ := h.opened t ht
  obtain ⟨sched, hrun, hinv, hdispatcher, hprocess, hstate⟩ := h.reap
  rw [hhead] at hrun
  have hlock := h.locks _ (Ps.mem_processes_of_alive (h.ps.threadProcess t ht hflags))
  obtain ⟨ps, hclose, hps, hgone, hlog⟩ := obDereferenceThread_spec h.ps hg ht hflags hidle hheader
    rfl (h.other_open hidle hcurrent) hlock h.lock
  have hboot := h.ne_boot ht
  have hlive : (if t ∈ ps.threads then m.live else m.live.erase t) = m.live.erase t := by
    rw [hgone.threads]
    exact if_neg (Finset.notMem_erase t _)
  -- the thread is on no list any more
  have hfree : (SchedEvent.free t).Enabled ⟨sched, m.live⟩ := by
    refine ⟨?_, (hstate t).trans hterminated, ?_⟩
    · show t ∈ m.live
      rw [h.live]
      exact Finset.mem_insert_of_mem ht
    · show t ∉ sched.dispatcher.exited
      rw [hdispatcher]
      obtain ⟨rest, hrest⟩ := List.head?_eq_some_iff.mp hhead
      have hnodup : (schedExited m.sched).Nodup := (h.sched.rep.lists.each none).nodup
      show t ∉ (schedExited m.sched).tail
      rw [hrest] at hnodup ⊢
      exact (List.nodup_cons.mp hnodup).1
  obtain ⟨hinv', -⟩ := schedStep_ok hinv hfree rfl
  have hother : ∀ i ∈ m.live.erase t, ps.ethread i = m.ps.ethread i := fun i hi =>
    hgone.other i (Finset.mem_erase.mp hi).1
  refine ⟨{ m with sched, ps, live := m.live.erase t }, ?_, ⟨hinv', hps, ?_, ?_, ?_, h.ne, fun i hi => ?_,
    fun i hi => ?_, fun q hq => ?_, fun q hq => ?_, hgone.lock, ?_⟩, hgone, hlog, hdispatcher⟩
  · rw [PsMachine.cleanUp, hrun, kernel_ok_bind]
    show (obDereferenceThread m.current m.currentProcess (sched.tcb t).State t m.ps >>= _) = _
    rw [(hstate t).trans hterminated, hclose, kernel_ok_bind]
    simp only [hlive]
    rfl
  · show m.live.erase t = insert boot ps.threads
    rw [h.live, hgone.threads, Finset.erase_insert_of_ne hboot.symm]
  · show boot ∉ ps.threads
    rw [hgone.threads]
    exact fun hmem => h.bootThread (Finset.mem_of_mem_erase hmem)
  · show (ps.ethread boot).ThreadsProcess = sys
    rw [hgone.other boot hboot.symm]
    exact h.bootProcess
  · rw [hgone.threads] at hi
    obtain ⟨hit, hi⟩ := Finset.mem_erase.mp hi
    rw [hgone.other i hit]
    exact h.opened i hi
  · rw [hother i hi]
    exact (hprocess i).trans (h.process i (Finset.mem_of_mem_erase hi))
  · exact hgone.gone q hq (h.alive q (hgone.processes hq))
  · exact hgone.locks q (h.locks q (hgone.processes hq))
  · show sched.dispatcher.Runnable boot ∧ sched.dispatcher.Runnable idle
    rw [hdispatcher]
    exact h.runnable

/-- **A thread is cleaned up only if** `PsCloseThread` finds what it needs. -/
theorem PsMachine.Inv.cleanUp_guards (h : m.Inv boot idle sys)
    (hhead : (schedExited m.sched).head? = some t) (hrun : m.cleanUp = .ok m') :
    CloseGuards m.current m.currentProcess .TERMINATED t m.ps := by
  obtain ⟨ht, hterminated, -, -⟩ := h.exited_thread (List.mem_of_mem_head? hhead)
  obtain ⟨hflags, hheader⟩ := h.opened t ht
  obtain ⟨sched, hreap, -, -, -, hstate⟩ := h.reap
  rw [hhead] at hreap
  rw [PsMachine.cleanUp, hreap, kernel_ok_bind] at hrun
  obtain ⟨ps, hclose, -⟩ := kernel_bind_eq_ok.mp hrun
  rw [(hstate t).trans hterminated, obDereferenceThread_eq hheader] at hclose
  obtain ⟨closed, hclose, -⟩ := kernel_bind_eq_ok.mp hclose
  have hshape := m.ps.threadDropped_shape t
  refine closeGuards_threadDropped.mp (psCloseThread_guards hclose ?_)
  rw [(hshape.ethread t).1]
  exact h.ps.flags t ht hflags

/-! ## Runs -/

/-- The process manager at the start. -/
theorem PsInvariant.start (h : m.Start boot idle sys) : PsInvariant idle sys noDebt m.ps := by
  obtain ⟨directory, handle, hsystem, -⟩ := h.system
  have hidlelive : idle ∈ m.live := by
    rw [h.live]
    exact Finset.mem_insert_of_mem (Finset.mem_singleton_self idle)
  have hflags : (m.ps.ethread idle).Flags ≠ 0 := by
    rw [h.idleFlags]
    decide
  have hprocess := (h.process idle hidlelive).2
  have hthread : ∀ t ∈ m.ps.threads, t = idle := by
    intro t ht
    rw [h.threads] at ht
    exact Finset.mem_singleton.mp ht
  have halive : m.ps.alive = {sys} := by
    ext p
    rw [Ps.mem_alive, h.processes, Finset.mem_singleton]
    refine and_iff_left_of_imp ?_
    rintro rfl
    rw [hsystem]
    show systemHeader.RefCount ≠ 0
    decide
  have hopen : m.ps.openThreads sys = {idle} := by
    ext t
    rw [Ps.mem_openThreads, Finset.mem_singleton]
    constructor
    · exact fun ht => hthread t ht.1
    · rintro rfl
      exact ⟨h.threads ▸ Finset.mem_singleton_self t, hflags, hprocess⟩
  have hchildren : m.ps.children sys = ∅ := by
    rw [Finset.eq_empty_iff_forall_notMem]
    intro c hc
    obtain ⟨hca, hparent⟩ := Ps.mem_children.mp hc
    rw [halive] at hca
    obtain rfl := Finset.mem_singleton.mp hca
    rw [hsystem] at hparent
    exact h.notNull hparent.symm
  have hself : ∀ p ∈ m.ps.alive, p = sys := by
    intro p hp
    rw [halive] at hp
    exact Finset.mem_singleton.mp hp
  have howner : ∀ o, m.ps.Owns sys o → o = .inl idle := by
    intro o ho
    cases o with
    | inl t => exact congrArg Sum.inl (hthread t ho.1)
    | inr p => exact absurd (hself p ho.1) ho.2
  constructor
  · intro t ht _
    rw [hthread t ht]
    exact h.idleFlags
  · intro t ht _
    rw [hthread t ht, hprocess, halive]
    exact Finset.mem_singleton_self sys
  · intro p hp hne
    rw [hself p hp, hsystem] at hne
    exact absurd rfl hne
  · rw [h.processes]
    exact fun hmem => h.notNull (Finset.mem_singleton.mp hmem).symm
  · intro p hp
    rw [hself p hp, hopen, hchildren, hsystem]
    rfl
  · intro p hp
    rw [hself p hp, hopen, hsystem]
    rfl
  · exact fun p hp hne => absurd (hself p hp) hne
  · rw [halive]
    exact Finset.mem_singleton_self sys
  · rw [hopen]
    exact Finset.mem_singleton_self idle
  · exact h.pteCount
  · intro o ho
    rw [howner o ho]
    obtain ⟨i, hstack, hroom, hbits, hmapped⟩ := h.kernelStack
    exact ⟨i, hstack, hroom, hbits, hmapped⟩
  · exact fun o o' ho ho' hne => absurd ((howner o ho).trans (howner o' ho').symm) hne

/-- **The invariant holds at the start.** -/
theorem PsMachine.Inv.start (h : m.Start boot idle sys) : m.Inv boot idle sys := by
  have hps := PsInvariant.start h
  obtain ⟨directory, handle, hsystem, -⟩ := h.system
  have hsched := schedInvariant_init h.sched
  have hready : m.sched.dispatcher.Runnable idle := by
    obtain ⟨-, -, hready, hstart, -⟩ := h.sched
    exact Or.inl ((hready idle (hstart idle rfl)).mpr rfl)
  have hrunning : m.sched.dispatcher.Runnable boot := by
    refine Or.inr ?_
    rw [← h.current]
    exact hsched.current_state
  have hsystemprocess : ∀ q ∈ m.ps.processes, q = sys := by
    intro q hq
    rw [h.processes] at hq
    exact Finset.mem_singleton.mp hq
  refine ⟨hsched, hps, ?_, ?_, ?_, h.ne, fun t ht => ?_, fun t ht => ?_, fun q hq => ?_,
    fun q hq => ?_, h.lock, hrunning, hready⟩
  · rw [h.live, h.threads]
  · rw [h.threads]
    exact fun hmem => h.ne (Finset.mem_singleton.mp hmem).symm
  · refine (h.process boot ?_).2
    rw [h.live]
    exact Finset.mem_insert_self boot _
  · rw [h.threads] at ht
    obtain rfl := Finset.mem_singleton.mp ht
    rw [h.idleFlags]
    exact ⟨by decide, h.idleHeader⟩
  · rw [(h.process t ht).1, (h.process t ht).2]
  · rw [hsystemprocess q hq]
    exact hps.system
  · rw [hsystemprocess q hq, hsystem]
    rfl

/-- **Every call that returns keeps the invariant.** -/
theorem PsMachine.Inv.step (h : m.Inv boot idle sys) {e : PsEvent τ}
    (hen : e.Enabled boot idle m) (hrun : e.run m = .ok m') : m'.Inv boot idle sys := by
  cases e with
  | createProcess p t kind signalState => exact (h.createProcess hen hrun).1
  | createThread t p signalState => exact (h.createThread hen hrun).1
  | exit => exact (h.exit hen hrun).1
  | schedule => exact (h.schedule hrun).1
  | cleanUp =>
    cases hexited : schedExited m.sched with
    | nil =>
      obtain ⟨m'', hrun', hinv, -⟩ := h.cleanUp_none hexited
      obtain rfl := Except.ok.inj (hrun'.symm.trans hrun)
      exact hinv
    | cons t rest =>
      have hhead : (schedExited m.sched).head? = some t := by rw [hexited]; rfl
      obtain ⟨m'', hrun', hinv, -⟩ := h.cleanUp_some hhead (h.cleanUp_guards hhead hrun)
      obtain rfl := Except.ok.inj (hrun'.symm.trans hrun)
      exact hinv

/-- **The invariant holds in every run.** -/
theorem psSystem_inv {t : List (PsEvent τ × PsMachine τ)} (h : (psSystem boot idle sys).Run t m) :
    m.Inv boot idle sys := by
  refine h.invariant (I := fun _ m => m.Inv boot idle sys) (fun m hm => .start hm) ?_
  rintro t m ⟨e, m₀⟩ m' - hinv ⟨hm₀, hen, hrun⟩
  obtain rfl : m₀ = m := hm₀
  exact hinv.step hen hrun

/-! ## A state to start from -/

/-- The first entry of a handle table. -/
def firstHandle : Fin EX_MAX_HANDLE := ⟨0, by unfold EX_MAX_HANDLE; decide⟩

/-- **The first two threads**: the first thread of the system, `0`, runs, and the idle thread, `1`, is
ready. The system process has the address 4. Of the system pages the PID table, the handle table, the
page directory and the bitmap of the system process have taken one each, and either stack three. -/
def firstThreads : PsMachine (Fin 4) where
  sched :=
    { tcb := fun t =>
        { ThreadProcess := 4, Quantum := 3
          State := if t = 1 then .READY else .RUNNING
          Priority := if t = 1 then 1 else 3
          Scheduler_link := ⟨some t, some t⟩ }
      process := fun _ => ⟨0, 3⟩
      CurrentThread := 0
      Scheduler_list := fun p => if p = 1 then ⟨some 1, 1⟩ else listInit
      ExitThreadList := listInit
      PageDirectory := 0 }
  live := {0, 1}
  ps :=
    { ethread := fun t =>
        { initialThread 4 (MMSYSPTE_START + PGSIZE * if t = 1 then 7 else 4) 0 with
          Flags := if t = 1 then threadFlags else 0
          UserStack := if t = 1 then USERPTEPOOL_START else 0 }
      threads := {1}
      eprocess := fun _ =>
        { initialProcess firstHandle NULL with
          header := systemHeader
          DirectoryTableBase := MMSYSPTE_START + PGSIZE * 2
          RundownProtect := 1
          ThreadListHead := [0, 1]
          ActiveThreads := 1 }
      processes := {4}
      PidTable := fun i => if i = firstHandle then .object 4 else .invalid
      userBitmap := fun _ => ⟨userPteCount, fillRange (fun _ => false) 0 4 true⟩
      userBitmaps := 1
      userMapped := fun _ => fillRange (fun _ => false) (USERPTEPOOL_START / PGSIZE) 4 true
      systemPtes :=
        { bitmap := ⟨systemPteCount, fillRange (fun _ => false) 0 10 true⟩
          mapped := fillRange (fun _ => false) (MMSYSPTE_START / PGSIZE) 10 true }
      DispatcherDataBaseLock := .free
      log := [] }
  inSchedule := fun _ => 0

/-- The first two threads are a state to start from. -/
theorem firstThreads_start : firstThreads.Start 0 1 4 where
  sched := by
    refine ⟨by decide, by decide, by decide, ?_, by decide, ?_, rfl⟩
    · intro t ht
      obtain rfl := Option.some.inj ht
      decide
    · intro p
      by_cases hp : p = 1
      · subst hp
        refine ⟨⟨rfl, rfl⟩, rfl, rfl, by decide, fun _ _ => trivial⟩
      · have hqueue : startQueue (some 1) firstThreads.sched p = [] := by
          simp [startQueue, firstThreads, hp]
        have hhead : firstThreads.sched.Scheduler_list p = listInit := by simp [firstThreads, hp]
        rw [hqueue, hhead]
        exact isList_listInit
  current := rfl
  ne := by decide
  live := rfl
  threads := rfl
  process _ _ := ⟨rfl, rfl⟩
  idleHeader := rfl
  idleFlags := rfl
  idleUserStack := rfl
  processes := rfl
  notNull := by decide
  system := ⟨MMSYSPTE_START + PGSIZE * 2, firstHandle, rfl, by simp [firstThreads]⟩
  pools := rfl
  pool := rfl
  mapped := allIn_fillRange
  pteCount := rfl
  kernelStack := by
    refine ⟨7, rfl, by decide, fun i hlo hhi => ?_, fun i hlo hhi => ?_⟩
    · exact if_pos ⟨Nat.zero_le i, by simp only [THREAD_STACK_SIZE] at hhi; omega⟩
    · exact if_pos ⟨by omega, by simp only [THREAD_STACK_SIZE] at hhi; omega⟩
  lock := rfl
  log := rfl

end KaushOS
