import KaushOS.Ps.MachineInvariant

/-! # The threads and the PID of a process

A process has a list of its threads and an entry in the PID table. Both are written by the routines of
`Process.lean` at a few places only, whatever else a process takes with it when it goes.

* **`Ps.Falls`** — what the processes that go with a decrement leave alone.
* **`PsMachine.Listed`** — the list of a process holds its threads, each once; its PID leads to it.
* **`psSystem_listed`** — so it is in every run. -/

namespace KaushOS

open CircularList Transition

variable {τ : Type} [DecidableEq τ] {boot idle current t : τ} {sys p parent : UInt32} {s s' s'' : Ps τ}

/-! ## Decrements -/

/-- **Processes fall**: other processes keep their members, and their entries of the PID table. -/
structure Ps.Falls (s s' : Ps τ) : Prop where
  ethread : s'.ethread = s.ethread
  threads : s'.threads = s.threads
  processes : s'.processes ⊆ s.processes
  members : ∀ q, ∃ r h, s'.eprocess q = { s.eprocess q with RundownProtect := r, header := h }
  pid : ∀ i, ∀ q ∈ s'.processes, s.PidTable i = .object q → s'.PidTable i = .object q

omit [DecidableEq τ] in
/-- Nothing falls. -/
theorem Ps.Falls.refl (s : Ps τ) : s.Falls s :=
  ⟨rfl, rfl, fun _ h => h, fun _ => ⟨_, _, rfl⟩, fun _ _ _ h => h⟩

omit [DecidableEq τ] in
/-- One fall after another. -/
theorem Ps.Falls.trans (h : s.Falls s') (h' : s'.Falls s'') : s.Falls s'' := by
  refine ⟨h'.ethread.trans h.ethread, h'.threads.trans h.threads,
    fun q hq => h.processes (h'.processes hq), fun q => ?_, fun i q hq hi => ?_⟩
  · obtain ⟨r, e, hmembers⟩ := h.members q
    obtain ⟨r', e', hmembers'⟩ := h'.members q
    exact ⟨r', e', by rw [hmembers', hmembers]⟩
  · exact h'.pid i q hq (h.pid i q (h'.processes hq) hi)

omit [DecidableEq τ] in
/-- A store to the counter or the header of a process. -/
theorem Ps.Falls.store (s : Ps τ) (p : UInt32) {f : EPROCESS τ → EPROCESS τ}
    (hf : ∀ e, ∃ r h, f e = { e with RundownProtect := r, header := h }) :
    s.Falls (s.modifyProcess p f) := by
  refine ⟨rfl, rfl, fun _ h => h, fun q => ?_, fun _ _ _ h => h⟩
  by_cases hq : q = p
  · subst hq
    obtain ⟨r, h, hfe⟩ := hf (s.eprocess q)
    exact ⟨r, h, (Function.update_self ..).trans hfe⟩
  · exact ⟨_, _, Function.update_of_ne hq ..⟩

omit [DecidableEq τ] in
/-- Only the log, the user pages and the system pages are written. -/
theorem Ps.Falls.other (hethread : s'.ethread = s.ethread) (hthreads : s'.threads = s.threads)
    (hprocesses : s'.processes = s.processes) (heprocess : s'.eprocess = s.eprocess)
    (hpid : s'.PidTable = s.PidTable) : s.Falls s' :=
  ⟨hethread, hthreads, fun _ h => hprocesses ▸ h, fun _ => ⟨_, _, by rw [heprocess]⟩,
    fun _ _ _ h => hpid ▸ h⟩

omit [DecidableEq τ] in
/-- A process is used. -/
theorem Ps.Falls.use (s : Ps τ) (p : UInt32) : s.Falls (s.useProcess p) := .other rfl rfl rfl rfl rfl

omit [DecidableEq τ] in
/-- Its PID, its pages and its memory are taken from the process `p`, and nothing from anybody else. -/
theorem bury_falls {closed : Ps τ} {n : Nat}
    (hrun : (do
      let s ← removePid p (s.useProcess p)
      mmDeleteProcessAddressSpace p s) = .ok closed) :
    s.Falls ({ closed.useProcess p with
      processes := (closed.useProcess p).processes.erase p }.record (.destroy p n)) := by
  obtain ⟨removed, hremove, hfree⟩ := kernel_bind_eq_ok.mp hrun
  obtain ⟨ptes, -, hfree⟩ := kernel_bind_eq_ok.mp hfree
  cases hfree
  obtain ⟨u, hentry, hremove⟩ := kernel_bind_eq_ok.mp hremove
  cases hremove
  have hentry' := assert_eq_ok.mp hentry
  refine ⟨rfl, rfl, Finset.erase_subset _ _, fun q => ⟨_, _, rfl⟩, fun i q hq hi => ?_⟩
  have hqp : q ≠ p := (Finset.mem_erase.mp hq).1
  refine (Function.update_of_ne ?_ ..).trans hi
  rintro rfl
  exact hqp (HANDLE_TABLE_ENTRY.object.inj (hi.symm.trans hentry'))

omit [DecidableEq τ] in
/-- **Dropping the reference to a process** lets it fall, if telling its parent does. -/
theorem obDereferenceProcess_falls {dec : UInt32 → Ps τ → Kernel (Ps τ)}
    (hdec : ∀ q s s', dec q s = .ok s' → s.Falls s')
    (hrun : obDereferenceProcess dec current p s = .ok s') : s.Falls s' := by
  obtain ⟨⟨header, remove⟩, -, hrun⟩ := kernel_bind_eq_ok.mp hrun
  have hdropped : s.Falls ((s.useProcess p).modifyProcess p fun e => { e with header }) :=
    (Ps.Falls.use s p).trans (.store _ p fun e => ⟨_, _, rfl⟩)
  cases remove with
  | false =>
    cases hrun
    exact hdropped
  | true =>
    obtain ⟨closed, hclose, hrun⟩ := kernel_bind_eq_ok.mp hrun
    cases hrun
    obtain ⟨u, -, hclose⟩ := kernel_bind_eq_ok.mp hclose
    obtain ⟨u, -, hclose⟩ := kernel_bind_eq_ok.mp hclose
    obtain ⟨u, -, hfree⟩ := kernel_bind_eq_ok.mp hclose
    have hused := hdropped.trans (Ps.Falls.use _ p)
    simp only [pspFreeProcess] at hfree
    split at hfree
    · split at hfree
      · -- the parent is told before the process goes
        obtain ⟨told, htell, hfree⟩ := kernel_bind_eq_ok.mp hfree
        exact (hused.trans (hdec _ _ _ htell)).trans (bury_falls hfree)
      · exact hused.trans (bury_falls hfree)
    · cases hfree
      exact hused.trans ⟨rfl, rfl, Finset.erase_subset _ _, fun q => ⟨_, _, rfl⟩, fun _ _ _ h => h⟩

omit [DecidableEq τ] in
/-- **A decrement lets processes fall.** -/
theorem psDecProcessRundownProtect_falls (depth : Nat)
    (hrun : psDecProcessRundownProtect current depth p s = .ok s') : s.Falls s' := by
  induction depth generalizing p s s' with
  | zero => cases hrun
  | succ depth ih =>
    obtain ⟨u, -, hrun⟩ := kernel_bind_eq_ok.mp hrun
    have hcount : s.Falls ((s.useProcess p).modifyProcess p fun e =>
        { e with RundownProtect := e.RundownProtect - 1 }) :=
      (Ps.Falls.use s p).trans (.store _ p fun e => ⟨_, _, rfl⟩)
    have hlogged : s.Falls (((s.useProcess p).modifyProcess p fun e =>
        { e with RundownProtect := e.RundownProtect - 1 }).record (.decrement p
          (((s.useProcess p).modifyProcess p fun e =>
            { e with RundownProtect := e.RundownProtect - 1 }).eprocess p).RundownProtect)) :=
      hcount.trans (.other rfl rfl rfl rfl rfl)
    dsimp only at hrun
    split at hrun
    · obtain ⟨u, -, hrun⟩ := kernel_bind_eq_ok.mp hrun
      exact hlogged.trans (obDereferenceProcess_falls (fun q s s' h => ih h) hrun)
    · cases hrun
      exact hlogged

/-! ## Closing a thread -/

/-- **Closing a thread** takes it off the list of its process. -/
theorem psCloseThread_lists {currentProcess : UInt32} {state : THREAD_STATE}
    (hrun : psCloseThread current currentProcess state t s = .ok s')
    (hflags : (s.ethread t).Flags = threadFlags) (hdispatcher : s.DispatcherDataBaseLock = .free) :
    s'.threads = s.threads ∧ s'.processes ⊆ s.processes
      ∧ (∀ i, (s'.ethread i).ThreadsProcess = (s.ethread i).ThreadsProcess)
      ∧ (∀ i, ∀ q ∈ s'.processes, s.PidTable i = .object q → s'.PidTable i = .object q)
      ∧ ∀ q, (s'.eprocess q).UniqueProcessId = (s.eprocess q).UniqueProcessId
        ∧ (s'.eprocess q).Parent = (s.eprocess q).Parent
        ∧ (s'.eprocess q).ThreadListHead
          = if q = (s.ethread t).ThreadsProcess then (s.eprocess q).ThreadListHead.erase t
            else (s.eprocess q).ThreadListHead := by
  obtain ⟨_, -, hrun⟩ := kernel_bind_eq_ok.mp hrun
  obtain ⟨_, -, hrun⟩ := kernel_bind_eq_ok.mp hrun
  obtain ⟨_, -, hrun⟩ := kernel_bind_eq_ok.mp hrun
  obtain ⟨_, -, hrun⟩ := kernel_bind_eq_ok.mp hrun
  obtain ⟨_, -, hrun⟩ := kernel_bind_eq_ok.mp hrun
  split at hrun
  · cases hrun
  obtain ⟨lock, -, hrun⟩ := kernel_bind_eq_ok.mp hrun
  obtain ⟨removed, hremove, hrun⟩ := kernel_bind_eq_ok.mp hrun
  obtain ⟨⟨_, freed⟩, hattached, hrun⟩ := kernel_bind_eq_ok.mp hrun
  obtain ⟨released, hkernel, hleave⟩ := kernel_bind_eq_ok.mp hrun
  generalize hlocked : Ps.modifyProcess _ _ _ = locked at hremove
  rw [removeThread_eq (by rw [← hlocked]; exact hflags)] at hremove
  cases hremove
  obtain ⟨stacked, hstack, rfl⟩ := attached_ok hattached (Nat.le_refl _)
    (by rw [← hlocked]; exact hdispatcher) fun b s₁ h => by
      obtain ⟨_, _, h⟩ := kernel_bind_eq_ok.mp h
      cases h
      rfl
  obtain ⟨_, -, hstack⟩ := kernel_bind_eq_ok.mp hstack
  cases hstack
  obtain ⟨ptes, -, hkernel⟩ := kernel_bind_eq_ok.mp hkernel
  cases hkernel
  obtain ⟨fallen, hdec, hleave⟩ := kernel_bind_eq_ok.mp hleave
  have hfalls := psDecProcessRundownProtect_falls _ hdec
  obtain ⟨lock', -, hleave⟩ := kernel_bind_eq_ok.mp hleave
  cases hleave
  subst hlocked
  refine ⟨hfalls.threads, hfalls.processes, fun i => ?_, hfalls.pid, fun q => ?_⟩
  · have hethread := congrFun hfalls.ethread i
    dsimp only [Ps.useProcess, Ps.record, Ps.modifyProcess] at hethread ⊢
    rw [hethread]
    by_cases hi : i = t
    · subst hi
      simp
    · simp [hi]
  · obtain ⟨r, h, hmembers⟩ := hfalls.members q
    dsimp only [Ps.modifyProcess, Ps.useProcess, Ps.record] at hmembers ⊢
    by_cases hq : q = (s.ethread t).ThreadsProcess
    · subst hq
      simp [hmembers]
    · simp [hq, hmembers]

/-! ## The invariant -/

/-- **Lists and PIDs.** The list of a process holds its threads, each of them once; the PID of a process
leads to it, and no process is its own parent. -/
structure Ps.Listed (boot : τ) (s : Ps τ) : Prop where
  nodup : ∀ p ∈ s.processes, (s.eprocess p).ThreadListHead.Nodup
  threads : ∀ p ∈ s.processes, ∀ t, t ∈ (s.eprocess p).ThreadListHead
    ↔ t ∈ insert boot s.threads ∧ (s.ethread t).ThreadsProcess = p
  pid : ∀ p ∈ s.processes, s.PidTable (s.eprocess p).UniqueProcessId = .object p
  parent : ∀ p ∈ s.processes, (s.eprocess p).Parent ≠ p

/-- At the start there is the system process, with two threads. -/
theorem Ps.Listed.start {m : PsMachine τ} (h : m.Start boot idle sys) : m.ps.Listed boot := by
  obtain ⟨directory, handle, hprocess, hpid⟩ := h.system
  have hmem : ∀ {p}, p ∈ m.ps.processes → p = sys := fun hp => by
    rw [h.processes] at hp
    exact Finset.mem_singleton.mp hp
  refine ⟨fun p hp => ?_, fun p hp t => ?_, fun p hp => ?_, fun p hp => ?_⟩
  · rw [hmem hp, hprocess]
    simp [h.ne.symm]
  · obtain rfl := hmem hp
    have hlive : insert boot m.ps.threads = m.live := by rw [h.live, h.threads]
    rw [hprocess, hlive]
    constructor
    · intro ht
      have ht' : t ∈ m.live := by
        rw [h.live]
        simpa using ht
      exact ⟨ht', (h.process t ht').2⟩
    · rintro ⟨ht, -⟩
      rw [h.live] at ht
      simpa using ht
  · rw [hmem hp, hprocess]
    exact hpid
  · obtain rfl := hmem hp
    rw [hprocess]
    exact h.notNull.symm

/-- **A thread has been created.** -/
theorem Ps.Listed.threadAdded (h : s.Listed boot) (hadd : s.ThreadAdded t p s')
    (ht : t ∉ insert boot s.threads) : s'.Listed boot := by
  have hmembers : ∀ q, (s'.eprocess q).UniqueProcessId = (s.eprocess q).UniqueProcessId
      ∧ (s'.eprocess q).Parent = (s.eprocess q).Parent
      ∧ (s'.eprocess q).ThreadListHead = if q = p then (s.eprocess q).ThreadListHead ++ [t]
        else (s.eprocess q).ThreadListHead := by
    intro q
    by_cases hq : q = p
    · subst hq
      rw [hadd.self, if_pos rfl]
      exact ⟨rfl, rfl, rfl⟩
    · rw [hadd.rest q hq, if_neg hq]
      exact ⟨rfl, rfl, rfl⟩
  refine ⟨fun q hq => ?_, fun q hq i => ?_, fun q hq => ?_, fun q hq => ?_⟩
  all_goals rw [hadd.processes] at hq
  · rw [(hmembers q).2.2]
    split
    · refine List.nodup_append'.mpr ⟨h.nodup q hq, List.nodup_singleton t, ?_⟩
      refine List.disjoint_singleton.mpr fun hmem => ht ((h.threads q hq t).mp hmem).1
    · exact h.nodup q hq
  · rw [(hmembers q).2.2, hadd.threads, Finset.insert_comm]
    by_cases hit : i = t
    · subst hit
      rw [hadd.process]
      split
      · rename_i hqp
        simp [hqp]
      · rename_i hqp
        have hnot : i ∉ (s.eprocess q).ThreadListHead :=
          fun hmem => ht ((h.threads q hq i).mp hmem).1
        simp [hnot, Ne.symm hqp]
    · rw [hadd.other i hit]
      have hinsert : i ∈ insert t (insert boot s.threads) ↔ i ∈ insert boot s.threads := by
        simp [hit]
      rw [hinsert, ← h.threads q hq i]
      split
      · simp [hit]
      · exact Iff.rfl
  · rw [(hmembers q).1, hadd.pid]
    exact h.pid q hq
  · rw [(hmembers q).2.1]
    exact h.parent q hq

/-- **A process has been created**, without a thread yet. -/
theorem Ps.Listed.processAdded (h : s.Listed boot) (hadd : s.ProcessAdded p parent s')
    (hp : p ∉ s.processes) (hparent : parent ≠ p) (hempty : (s'.eprocess p).ThreadListHead = [])
    (hthreads : ∀ t ∈ insert boot s.threads, (s.ethread t).ThreadsProcess ∈ s.processes) :
    s'.Listed boot := by
  have hmem : ∀ q ∈ s'.processes, q = p ∨ q ≠ p ∧ q ∈ s.processes := by
    intro q hq
    rw [hadd.processes] at hq
    by_cases hqp : q = p
    · exact Or.inl hqp
    · exact Or.inr ⟨hqp, (Finset.mem_insert.mp hq).resolve_left hqp⟩
  refine ⟨fun q hq => ?_, fun q hq i => ?_, fun q hq => ?_, fun q hq => ?_⟩
  all_goals rcases hmem q hq with rfl | ⟨hqp, hq⟩
  · rw [hempty]
    exact List.nodup_nil
  · obtain ⟨r, hr⟩ := hadd.other q hqp
    rw [hr]
    exact h.nodup q hq
  · rw [hempty, hadd.threads, hadd.ethread]
    constructor
    · exact fun hi => absurd hi List.not_mem_nil
    · rintro ⟨hi, rfl⟩
      exact absurd (hthreads i hi) hp
  · obtain ⟨r, hr⟩ := hadd.other q hqp
    rw [hr, hadd.threads, hadd.ethread]
    exact h.threads q hq i
  · exact hadd.pid
  · obtain ⟨r, hr⟩ := hadd.other q hqp
    rw [hr]
    exact hadd.pidOther _ _ (h.pid q hq)
  · rw [hadd.child]
    exact hparent
  · obtain ⟨r, hr⟩ := hadd.other q hqp
    rw [hr]
    exact h.parent q hq

/-- A process starts without threads. -/
theorem pspAllocateProcess_list {binary : Bool}
    (hrun : pspAllocateProcess current p parent binary s = .ok s') :
    (s'.eprocess p).ThreadListHead = [] := by
  simp only [pspAllocateProcess] at hrun
  obtain ⟨⟨handle, s₁⟩, -, hrun⟩ := kernel_bind_eq_ok.mp hrun
  obtain ⟨⟨table, s₂⟩, htable, hrun⟩ := kernel_bind_eq_ok.mp hrun
  obtain ⟨ptes₁, -, rfl⟩ := allocateSystemPtes_ok htable
  obtain ⟨⟨directory, s₃⟩, hdirectory, hrun⟩ := kernel_bind_eq_ok.mp hrun
  obtain ⟨ptes₂, -, rfl⟩ := allocateSystemPtes_ok hdirectory
  obtain ⟨⟨u, s₄⟩, hfill, hrun⟩ := kernel_bind_eq_ok.mp hrun
  obtain ⟨lock, -, hfill⟩ := kernel_bind_eq_ok.mp hfill
  obtain ⟨⟨_, s₅⟩, hfilled, hfill⟩ := kernel_bind_eq_ok.mp hfill
  cases hfilled
  obtain ⟨lock', -, hfill⟩ := kernel_bind_eq_ok.mp hfill
  cases hfill
  obtain ⟨⟨page, s₆⟩, hpage, hrun⟩ := kernel_bind_eq_ok.mp hrun
  obtain ⟨ptes₃, -, rfl⟩ := allocateSystemPtes_ok hpage
  obtain ⟨pool, bitmap, count, hpool⟩ := givePool_eq p parent (decide (¬binary ∧ parent ≠ NULL)) _
  have hs' := Except.ok.inj hrun
  rw [hpool] at hs'
  rw [← hs']
  split
  · by_cases hparent : p = parent
    · simp [psIncProcessRundownProtect, Ps.modifyProcess, Ps.useProcess, Ps.record, hparent,
        initialProcess]
    · simp [psIncProcessRundownProtect, Ps.modifyProcess, Ps.useProcess, Ps.record, hparent,
        initialProcess]
  · simp [Ps.modifyProcess, Ps.useProcess, Ps.record, initialProcess]

/-- **A process has been created with its first thread.** -/
theorem Ps.Listed.create (h : s.Listed boot) {binary isClone : Bool} {currentProcess : UInt32}
    {signalState : Int} (halloc : pspAllocateProcess current p parent binary s = .ok s')
    (hthread : (insertProcess p s').pspCreateThread current currentProcess isClone signalState t p
      = .ok s'')
    (hp : p ∉ s.processes) (hnull : p ≠ NULL) (hparent : parent ≠ NULL → parent ∈ s.processes)
    (hdispatcher : s.DispatcherDataBaseLock = .free) (ht : t ∉ insert boot s.threads)
    (hthreads : ∀ t ∈ insert boot s.threads, (s.ethread t).ThreadsProcess ∈ s.processes) :
    s''.Listed boot := by
  have hadd := pspAllocateProcess_added halloc hp hparent hdispatcher
  have hne : parent ≠ p := by
    rintro rfl
    exact hp (hparent hnull)
  have hempty : ((insertProcess p s').eprocess p).ThreadListHead = [] := by
    simpa [insertProcess, Ps.modifyProcess, Ps.useProcess, Ps.record]
      using pspAllocateProcess_list halloc
  have hmem : p ∈ (insertProcess p s').processes := by
    rw [hadd.processes]
    exact Finset.mem_insert_self p _
  refine (h.processAdded hadd hp hne hempty hthreads).threadAdded
    (Ps.pspCreateThread_added hthread hmem hadd.processLock hadd.lock) ?_
  rw [hadd.threads]
  exact ht

/-- **A thread has been cleaned up.** -/
theorem Ps.Listed.threadGone (h : s.Listed boot) {currentProcess : UInt32} {state : THREAD_STATE}
    (hrun : obDereferenceThread current currentProcess state t s = .ok s')
    (hheader : (s.ethread t).header = createdHeader .OBJECT_TYPE_THREAD)
    (hflags : (s.ethread t).Flags = threadFlags) (hdispatcher : s.DispatcherDataBaseLock = .free)
    (ht : t ≠ boot) : s'.Listed boot := by
  rw [obDereferenceThread_eq hheader] at hrun
  obtain ⟨closed, hclose, hrun⟩ := kernel_bind_eq_ok.mp hrun
  cases hrun
  have hshape := s.threadDropped_shape t
  obtain ⟨hthreads, hprocesses, hprocess, hpid, hmembers⟩ :=
    psCloseThread_lists hclose ((hshape.ethread t).1.trans hflags) hdispatcher
  have howner : ∀ i, (closed.ethread i).ThreadsProcess = (s.ethread i).ThreadsProcess := fun i =>
    (hprocess i).trans (hshape.ethread i).2.1
  rw [(hshape.ethread t).2.1] at hmembers
  have hlist : ∀ q, (closed.eprocess q).ThreadListHead = if q = (s.ethread t).ThreadsProcess
      then (s.eprocess q).ThreadListHead.erase t else (s.eprocess q).ThreadListHead :=
    fun q => (hmembers q).2.2
  refine ⟨fun q hq => ?_, fun q hq i => ?_, fun q hq => ?_, fun q hq => ?_⟩
  all_goals
    have hq' : q ∈ s.processes := hprocesses hq
    dsimp only at hq ⊢
  · rw [hlist]
    split
    · exact (h.nodup q hq').erase t
    · exact h.nodup q hq'
  · have hthread := h.threads q hq' i
    have hmem : i ∈ insert boot (closed.threads.erase t)
        ↔ i ≠ t ∧ i ∈ insert boot s.threads := by
      rw [show closed.threads = s.threads from hthreads, ← Finset.erase_insert_of_ne ht.symm,
        Finset.mem_erase]
    rw [hlist, hmem, howner]
    split
    · rename_i hqp
      rw [(h.nodup q hq').mem_erase_iff, hthread, and_assoc]
    · rename_i hqp
      rw [hthread, and_assoc]
      refine ⟨fun hi => ⟨?_, hi⟩, fun hi => hi.2⟩
      rintro rfl
      exact hqp hi.2.symm
  · rw [(hmembers q).1]
    exact hpid _ q hq (h.pid q hq')
  · rw [(hmembers q).2.1]
    exact h.parent q hq'

/-- **Lists and PIDs in every run.** -/
theorem psSystem_listed {idle : τ} {m : PsMachine τ} {tr : List (PsEvent τ × PsMachine τ)}
    (h : (psSystem boot idle sys).Run tr m) : m.ps.Listed boot := by
  induction h with
  | start hm => exact .start hm
  | @step tr m l m' hrun hs ih =>
    have hinv := psSystem_inv hrun
    obtain ⟨e, m₀⟩ := l
    obtain ⟨hm₀, hen, hs⟩ := hs
    obtain rfl : m₀ = m := hm₀
    dsimp only at hen hs
    have hthreads : ∀ t ∈ insert boot m₀.ps.threads,
        (m₀.ps.ethread t).ThreadsProcess ∈ m₀.ps.processes := fun t ht =>
      Ps.mem_processes_of_alive (hinv.process_alive (hinv.live ▸ ht))
    cases e with
    | createProcess p t kind signalState =>
      obtain ⟨-, hnull, hp, ht, -⟩ := hen
      rw [hinv.live] at ht
      obtain ⟨ps, hcreate, hstart⟩ := kernel_bind_eq_ok.mp hs
      obtain ⟨sched, -, hstart⟩ := kernel_bind_eq_ok.mp hstart
      cases hstart
      cases kind with
      | fork =>
        obtain ⟨s₀, halloc, hthread⟩ := kernel_bind_eq_ok.mp hcreate
        exact ih.create halloc hthread hp hnull (fun _ => hinv.currentProcess_mem) hinv.lock ht hthreads
      | load parent entryPoint =>
        obtain ⟨s₀, halloc, hthread⟩ := kernel_bind_eq_ok.mp hcreate
        refine ih.create halloc hthread hp hnull (fun hne => ?_) hinv.lock ht hthreads
        cases parent with
        | true => exact hinv.currentProcess_mem
        | false => exact absurd rfl hne
    | createThread t p signalState =>
      have hadd := (hinv.createThread hen hs).2.1
      exact ih.threadAdded hadd (hinv.live ▸ hen.2.1)
    | exit =>
      rw [(hinv.exit hen hs).2.1]
      have hshape := m₀.ps.signalled_shape m₀.current
      refine ⟨ih.nodup, fun q hq i => ?_, ih.pid, ih.parent⟩
      rw [(hshape.ethread i).2.1]
      exact ih.threads q hq i
    | schedule =>
      rw [(hinv.schedule hs).2.1]
      exact ih
    | cleanUp =>
      obtain ⟨⟨thread, sched⟩, hreap, hs⟩ := kernel_bind_eq_ok.mp hs
      cases thread with
      | none =>
        cases hs
        exact ih
      | some t =>
        obtain ⟨ps, hclose, hs⟩ := kernel_bind_eq_ok.mp hs
        cases hs
        obtain ⟨sched', hreap', -⟩ := hinv.reap
        have hhead : (schedExited m₀.sched).head? = some t :=
          (Prod.mk.inj (Except.ok.inj (hreap'.symm.trans hreap))).1
        obtain ⟨ht, -, -, -⟩ := hinv.exited_thread (List.mem_of_mem_head? hhead)
        obtain ⟨hflags, hheader⟩ := hinv.opened t ht
        exact ih.threadGone hclose hheader (hinv.ps.flags t ht hflags) hinv.lock (hinv.ne_boot ht)

end KaushOS
