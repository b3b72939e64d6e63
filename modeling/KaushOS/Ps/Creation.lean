import KaushOS.Ps.Destruction

/-! # New processes and threads

What `PspAllocateProcess`, `PspCreateThread` and `PsCreateProcess` have done when they return. Every
path on which they fail ends in a bugcheck, so nothing has to be undone.

* **`Ps.ThreadAdded`, `Ps.pspCreateThread_added`** — a new thread, with a kernel stack of its own.
* **`Ps.ProcessAdded`, `pspAllocateProcess_added`** — a new process, with a page directory of its own
  and two more pages that nobody will give back.
* **`PsInvariant.threadAdded`, `PsInvariant.processAdded`** — both keep the invariant. -/

namespace KaushOS

variable {τ : Type} {idle current t : τ} {sys p q parent currentProcess : UInt32} {s s' : Ps τ}

/-! ## Steps of the creation -/

/-- Entries of the log that are uses of processes which are allocated. -/
def OnlyUses (new : List (PsAction τ)) : Prop := ∀ a ∈ new, ∃ q, a = .use q true

/-- Using an allocated process once more. -/
theorem OnlyUses.cons {new : List (PsAction τ)} (h : OnlyUses new) (q : UInt32) :
    OnlyUses (.use q true :: new) :=
  List.forall_mem_cons.mpr ⟨⟨q, rfl⟩, h⟩

/-- System pages that a routine gets. -/
theorem allocateSystemPtes_ok {n a : Nat} {failure : BugCheck}
    (hrun : allocateSystemPtes n failure s = .ok (a, s')) :
    ∃ ptes, mmAllocateSystemPtes n s.systemPtes = .ok (some a, ptes)
      ∧ s' = { s with systemPtes := ptes } := by
  obtain ⟨⟨memory, ptes⟩, halloc, hrun⟩ := kernel_bind_eq_ok.mp hrun
  cases memory with
  | none => cases hrun
  | some memory =>
    cases hrun
    exact ⟨ptes, halloc, rfl⟩

variable [DecidableEq τ]

/-- A part that has run attached to another process, when nobody held the lock of the dispatcher. -/
theorem attached_ok {α : Type} {irql : Nat} {f : Ps τ → Kernel (α × Ps τ)} {a : α}
    (hrun : attached irql current f s = .ok (a, s')) (hirql : irql ≤ DISPATCH_LEVEL)
    (hlock : s.DispatcherDataBaseLock = .free)
    (hf : ∀ b s₁, f { s with DispatcherDataBaseLock := .heldBy current irql } = .ok (b, s₁) →
      s₁.DispatcherDataBaseLock = .heldBy current irql) :
    ∃ s₁, f { s with DispatcherDataBaseLock := .heldBy current irql } = .ok (a, s₁)
      ∧ s' = { s₁ with DispatcherDataBaseLock := .free } := by
  have hrun' := hrun
  simp only [attached, hlock, keAcquireSpinLock_free hirql, kernel_ok_bind] at hrun'
  obtain ⟨⟨b, s₁⟩, hf₁, -⟩ := kernel_bind_eq_ok.mp hrun'
  rw [attached_eq hirql hlock hf₁ (hf b s₁ hf₁)] at hrun
  cases hrun
  exact ⟨s₁, hf₁, rfl⟩

/-- The user stack of a new thread. -/
theorem allocateUserStack_ok {u : Unit} (hrun : allocateUserStack t p s = .ok (u, s')) :
    ∃ stack bitmap mapped, s' = { s with
      ethread := Function.update s.ethread t { s.ethread t with UserStack := stack }
      userBitmap := bitmap
      userMapped := mapped } := by
  obtain ⟨⟨memory, bitmap, mapped⟩, -, hrun⟩ := kernel_bind_eq_ok.mp hrun
  cases memory with
  | none => cases hrun
  | some stack =>
    cases hrun
    exact ⟨stack, _, _, rfl⟩

/-- A new thread has got a user stack, of its own or that of the current thread. -/
theorem giveUserStack_ok {isClone : Bool}
    (hrun : giveUserStack current currentProcess isClone t p s = .ok s')
    (hlock : s.DispatcherDataBaseLock = .free) :
    ∃ stack bitmap mapped, s' = { s with
      ethread := Function.update s.ethread t { s.ethread t with UserStack := stack }
      userBitmap := bitmap
      userMapped := mapped } := by
  unfold giveUserStack at hrun
  split at hrun
  · cases hrun
    exact ⟨_, _, _, rfl⟩
  · split at hrun
    · obtain ⟨⟨u, s₁⟩, hattached, hrun⟩ := kernel_bind_eq_ok.mp hrun
      cases hrun
      obtain ⟨s₂, halloc, rfl⟩ := attached_ok hattached (Nat.le_refl _) hlock fun b s₂ h => by
        obtain ⟨stack, bitmap, mapped, rfl⟩ := allocateUserStack_ok h
        rfl
      obtain ⟨stack, bitmap, mapped, rfl⟩ := allocateUserStack_ok halloc
      refine ⟨stack, bitmap, mapped, ?_⟩
      simp only [hlock]
    · obtain ⟨⟨u, s₁⟩, halloc, hrun⟩ := kernel_bind_eq_ok.mp hrun
      cases hrun
      exact allocateUserStack_ok halloc

/-! ## A new thread -/

/-- **The thread `t` has been created** in the process `p`. -/
structure Ps.ThreadAdded (t : τ) (p : UInt32) (s s' : Ps τ) : Prop where
  threads : s'.threads = insert t s.threads
  processes : s'.processes = s.processes
  pid : s'.PidTable = s.PidTable
  header : (s'.ethread t).header = createdHeader .OBJECT_TYPE_THREAD
  flags : (s'.ethread t).Flags = threadFlags
  process : (s'.ethread t).ThreadsProcess = p
  other : ∀ i, i ≠ t → s'.ethread i = s.ethread i
  self : s'.eprocess p = { s.eprocess p with
    ProcessLock := .free
    ThreadListHead := (s.eprocess p).ThreadListHead ++ [t]
    ActiveThreads := (s.eprocess p).ActiveThreads + 1
    RundownProtect := (s.eprocess p).RundownProtect + 1 }
  rest : ∀ q, q ≠ p → s'.eprocess q = s.eprocess q
  lock : s'.DispatcherDataBaseLock = .free
  stack : mmAllocateSystemPtes THREAD_STACK_SIZE s.systemPtes
    = .ok (some (s'.ethread t).KernelStack, s'.systemPtes)
  log : ∃ new, s'.log = new ++ s.log ∧ OnlyUses new

/-- **`PspCreateThread` returns** with a new thread. -/
theorem Ps.pspCreateThread_added {isClone : Bool} {signalState : Int}
    (hrun : s.pspCreateThread current currentProcess isClone signalState t p = .ok s')
    (hp : p ∈ s.processes) (hlock : (s.eprocess p).ProcessLock = .free)
    (hdispatcher : s.DispatcherDataBaseLock = .free) : s.ThreadAdded t p s' := by
  have hacquire : keAcquireSpinLock PASSIVE_LEVEL current ((s.useProcess p).eprocess p).ProcessLock
      = .ok (.heldBy current PASSIVE_LEVEL) := by
    show keAcquireSpinLock _ _ (s.eprocess p).ProcessLock = _
    rw [hlock]
    exact keAcquireSpinLock_free (by decide)
  simp only [Ps.pspCreateThread, hacquire, kernel_ok_bind] at hrun
  obtain ⟨s₁, hallocate, hrun⟩ := kernel_bind_eq_ok.mp hrun
  obtain ⟨⟨stack, s₂⟩, hstack, hgive⟩ := kernel_bind_eq_ok.mp hallocate
  obtain ⟨ptes, hptes, rfl⟩ := allocateSystemPtes_ok hstack
  have hptes' : mmAllocateSystemPtes THREAD_STACK_SIZE s.systemPtes = .ok (some stack, ptes) := hptes
  obtain ⟨user, bitmap, mapped, rfl⟩ := giveUserStack_ok hgive hdispatcher
  obtain ⟨lock, hrelease, hrun⟩ := kernel_bind_eq_ok.mp hrun
  simp only [psIncProcessRundownProtect, Ps.useProcess, Ps.record, Ps.modifyProcess,
    Ps.modifyThread, Function.update_self, Function.update_idem, keReleaseProcessLock_heldBy,
    hp, decide_true] at hrelease hrun
  cases hrelease
  cases hrun
  refine ⟨rfl, rfl, rfl, ?_, ?_, ?_, fun i hi => ?_, ?_, fun q hq => ?_, hdispatcher, ?_, ?_⟩
  · simp [initialThread]
  · simp [threadFlags]
  · simp [initialThread]
  · simp [hi]
  · simp
  · simp [hq]
  · simpa [initialThread] using hptes'
  · exact ⟨[.use p true, .use p true], rfl,
      List.forall_mem_cons.mpr ⟨⟨p, rfl⟩, List.forall_mem_singleton.mpr ⟨p, rfl⟩⟩⟩

/-! ## A new process -/

/-- The address space of a new process has been filled. -/
theorem attached_fillAddressSpace {isClone : Bool} {u : Unit}
    (hrun : attached PASSIVE_LEVEL current (fillAddressSpace p parent isClone) s = .ok (u, s'))
    (hlock : s.DispatcherDataBaseLock = .free) :
    ∃ mapped, s' = { s with userMapped := mapped } := by
  obtain ⟨s₁, hfill, rfl⟩ := attached_ok hrun (by decide) hlock fun b s₁ h => by
    cases h
    rfl
  obtain rfl := (Prod.mk.inj (Except.ok.inj hfill)).2
  refine ⟨Function.update s.userMapped p
    (if isClone then s.userMapped parent else fun _ => false), ?_⟩
  rw [← hlock]

omit [DecidableEq τ] in
/-- The PID of a new process. -/
theorem insertPid_ok {handle : Fin EX_MAX_HANDLE} (hrun : insertPid p s = .ok (handle, s')) :
    s.PidTable handle = .invalid
      ∧ s' = { s with PidTable := Function.update s.PidTable handle (.object p) } := by
  unfold insertPid at hrun
  split at hrun
  · rename_i i hfree
    cases hrun
    refine ⟨?_, rfl⟩
    have hinvalid := List.find?_some hfree
    simpa using hinvalid
  · cases hrun

omit [DecidableEq τ] in
/-- The protection of its parent by a new process, if it has one. -/
theorem protectParent_eq (hparent : parent ≠ NULL → parent ∈ s.processes) :
    ∃ new, OnlyUses new
      ∧ (if parent ≠ NULL then psIncProcessRundownProtect parent s else s) = { s with
        eprocess := fun q => { s.eprocess q with
          RundownProtect := (s.eprocess q).RundownProtect
            + if parent ≠ NULL then owes parent q else 0 }
        log := new ++ s.log } := by
  by_cases hnull : parent = NULL
  · refine ⟨[], List.forall_mem_nil _, ?_⟩
    simp [hnull]
  · refine ⟨[.use parent true], List.forall_mem_singleton.mpr ⟨parent, rfl⟩, ?_⟩
    have hupdate : Function.update s.eprocess parent
        { s.eprocess parent with RundownProtect := (s.eprocess parent).RundownProtect + 1 }
        = fun q => { s.eprocess q with
          RundownProtect := (s.eprocess q).RundownProtect + (owes parent q : Int) } := by
      funext q
      by_cases hq : q = parent
      · subst hq
        simp [owes]
      · simp [hq, owes]
    simp only [psIncProcessRundownProtect, Ps.useProcess, Ps.record, Ps.modifyProcess, ne_eq, hnull,
      not_false_eq_true, if_true, hparent hnull, decide_true, hupdate]
    rfl

omit [DecidableEq τ] in
/-- The pool of user PTEs of a new process. -/
theorem givePool_eq (p parent : UInt32) (isClone : Bool) (s : Ps τ) :
    ∃ pool bitmap count, (if isClone then mmCloneUserPtes p parent s else mmInitializeUserPtes p s)
      = { s with
        eprocess := Function.update s.eprocess p { s.eprocess p with UserPtePool := pool }
        userBitmap := bitmap
        userBitmaps := count } := by
  cases isClone with
  | true => exact ⟨_, _, _, rfl⟩
  | false => exact ⟨_, _, _, rfl⟩

/-- **The process `p` has been created** as a child of `parent`. Besides its page directory it has got
a page for its handle table and one for the bitmap of its user PTEs. -/
structure Ps.ProcessAdded (p parent : UInt32) (s s' : Ps τ) : Prop where
  threads : s'.threads = s.threads
  ethread : s'.ethread = s.ethread
  processes : s'.processes = insert p s.processes
  header : (s'.eprocess p).header = createdHeader .OBJECT_TYPE_PROCESS
  flags : (s'.eprocess p).Flags = processFlags
  counters : (s'.eprocess p).RundownProtect = 0 ∧ (s'.eprocess p).ActiveThreads = 0
  child : (s'.eprocess p).Parent = parent
  processLock : (s'.eprocess p).ProcessLock = .free
  pid : s'.PidTable (s'.eprocess p).UniqueProcessId = .object p
  pidOther : ∀ i q, s.PidTable i = .object q → s'.PidTable i = .object q
  other : ∀ q, q ≠ p → ∃ r, s'.eprocess q = { s.eprocess q with RundownProtect := r }
  protect : ∀ q, q ≠ p → q ≠ NULL →
    (s'.eprocess q).RundownProtect = (s.eprocess q).RundownProtect + owes parent q
  pages : ∃ table ptes₁ ptes₂ page,
    mmAllocateSystemPtes 1 s.systemPtes = .ok (some table, ptes₁)
      ∧ mmAllocateSystemPtes 1 ptes₁ = .ok (some (s'.eprocess p).DirectoryTableBase, ptes₂)
      ∧ mmAllocateSystemPtes 1 ptes₂ = .ok (some page, s'.systemPtes)
  lock : s'.DispatcherDataBaseLock = .free
  log : ∃ new, s'.log = new ++ s.log ∧ OnlyUses new

/-- **`PspAllocateProcess` returns** with a new process, which `PsCreateProcess` marks as such. -/
theorem pspAllocateProcess_added {binary : Bool}
    (hrun : pspAllocateProcess current p parent binary s = .ok s')
    (hp : p ∉ s.processes) (hparent : parent ≠ NULL → parent ∈ s.processes)
    (hdispatcher : s.DispatcherDataBaseLock = .free) :
    s.ProcessAdded p parent (insertProcess p s') := by
  have hne : parent ≠ NULL → parent ≠ p := by
    rintro hnull rfl
    exact hp (hparent hnull)
  simp only [pspAllocateProcess] at hrun
  obtain ⟨⟨handle, s₁⟩, hpid, hrun⟩ := kernel_bind_eq_ok.mp hrun
  obtain ⟨hinvalid, rfl⟩ := insertPid_ok hpid
  obtain ⟨⟨table, s₂⟩, hrun₁, hrun⟩ := kernel_bind_eq_ok.mp hrun
  obtain ⟨ptes₁, htable, hs₂⟩ := allocateSystemPtes_ok hrun₁
  have hprocs₂ : s₂.processes = insert p s.processes := by
    rw [hs₂]
    rfl
  obtain ⟨new, hnew, hprotect⟩ := protectParent_eq (s := s₂) fun hnull : parent ≠ NULL =>
    hprocs₂ ▸ Finset.mem_insert_of_mem (hparent hnull)
  rw [hprotect] at hrun
  obtain ⟨⟨directory, s₃⟩, hrun₂, hrun⟩ := kernel_bind_eq_ok.mp hrun
  obtain ⟨ptes₂, hdirectory, rfl⟩ := allocateSystemPtes_ok hrun₂
  obtain ⟨⟨u, s₄⟩, hfill, hrun⟩ := kernel_bind_eq_ok.mp hrun
  obtain ⟨mapped, rfl⟩ := attached_fillAddressSpace hfill (by subst hs₂; exact hdispatcher)
  obtain ⟨⟨page, s₅⟩, hrun₃, hrun⟩ := kernel_bind_eq_ok.mp hrun
  obtain ⟨ptes₃, hpage, rfl⟩ := allocateSystemPtes_ok hrun₃
  have hdirectory' : mmAllocateSystemPtes 1 ptes₁ = .ok (some directory, ptes₂) := by
    rw [hs₂] at hdirectory
    exact hdirectory
  have hs' := Except.ok.inj hrun
  obtain ⟨pool, bitmap, count, hpool⟩ := givePool_eq p parent _ _
  rw [hpool] at hs'
  have hallocated : decide (p ∈ s₂.processes) = true := by
    rw [hprocs₂]
    exact decide_eq_true (Finset.mem_insert_self p _)
  clear hrun hrun₁ hrun₂ hrun₃ hfill hpid hprotect hpool
  have hnone : parent ≠ NULL → owes parent p = 0 := fun hnull => if_neg (hne hnull).symm
  subst hs'
  subst hs₂
  simp only [insertProcess, Ps.useProcess, Ps.record, Ps.modifyProcess, Function.update_self,
    Function.update_idem]
  refine ⟨rfl, rfl, rfl, ?_, ?_, ?_, ?_, ?_, ?_, fun i q hi => ?_, fun q hq => ?_, fun q hq hnull => ?_,
    ⟨table, ptes₁, ptes₂, page, htable, ?_, hpage⟩, hdispatcher,
    .use p true :: .use p true :: new, ?_, ?_⟩
  · simp [initialProcess]
  · simp [processFlags]
  · constructor
    · by_cases hnull : parent = NULL
      · simp [initialProcess, hnull]
      · simp [initialProcess, hnone hnull]
    · simp [initialProcess]
  · simp [initialProcess]
  · simp [initialProcess]
  · simp [initialProcess]
  · have hih : i ≠ handle := by
      rintro rfl
      rw [hinvalid] at hi
      cases hi
    simpa [Function.update_of_ne hih] using hi
  · simp only [Function.update_of_ne hq]
    exact ⟨_, rfl⟩
  · by_cases hparentnull : parent = NULL
    · have howes : owes NULL q = 0 := if_neg hnull
      simp [Function.update_of_ne hq, hparentnull, howes]
    · simp [Function.update_of_ne hq, hparentnull]
  · simpa using hdirectory'
  · simp
  · exact (hnew.cons p).cons p

/-- **`PsCreateProcess` returns** with a new process and its first thread. -/
theorem psCreateProcess_added {kind : ProcessKind} {signalState : Int}
    (hrun : psCreateProcess current currentProcess kind signalState p t s = .ok s')
    (hp : p ∉ s.processes) (hcurrent : currentProcess ∈ s.processes)
    (hdispatcher : s.DispatcherDataBaseLock = .free) :
    ∃ parent s₁, (parent = NULL ∨ parent = currentProcess) ∧ s.ProcessAdded p parent s₁
      ∧ s₁.ThreadAdded t p s' := by
  cases kind with
  | fork =>
    obtain ⟨s₀, halloc, hthread⟩ := kernel_bind_eq_ok.mp hrun
    have hadd := pspAllocateProcess_added halloc hp (fun _ => hcurrent) hdispatcher
    refine ⟨currentProcess, _, Or.inr rfl, hadd,
      Ps.pspCreateThread_added hthread ?_ hadd.processLock hadd.lock⟩
    rw [hadd.processes]
    exact Finset.mem_insert_self p _
  | load parent entryPoint =>
    obtain ⟨s₀, halloc, hthread⟩ := kernel_bind_eq_ok.mp hrun
    have hparent : (if parent then currentProcess else NULL) = NULL
        ∨ (if parent then currentProcess else NULL) = currentProcess := by
      cases parent with
      | true => exact Or.inr rfl
      | false => exact Or.inl rfl
    have hmem : (if parent then currentProcess else NULL) ≠ NULL →
        (if parent then currentProcess else NULL) ∈ s.processes := by
      intro hne
      rw [hparent.resolve_left hne]
      exact hcurrent
    have hadd := pspAllocateProcess_added halloc hp hmem hdispatcher
    refine ⟨_, _, hparent, hadd, Ps.pspCreateThread_added hthread ?_ hadd.processLock hadd.lock⟩
    rw [hadd.processes]
    exact Finset.mem_insert_self p _

/-! ## The invariant -/

/-- The same processes are alive after a thread has been created. -/
theorem Ps.ThreadAdded.alive (h : s.ThreadAdded t p s') : s'.alive = s.alive := by
  ext q
  rw [Ps.mem_alive, Ps.mem_alive, h.processes]
  by_cases hq : q = p
  · subst hq
    rw [h.self]
  · rw [h.rest q hq]

/-- Locks that are free stay free when a thread is created. -/
theorem Ps.ThreadAdded.locks (h : s.ThreadAdded t p s')
    (hq : q ≠ p → (s.eprocess q).ProcessLock = .free) : (s'.eprocess q).ProcessLock = .free := by
  by_cases hqp : q = p
  · subst hqp
    rw [h.self]
  · rw [h.rest q hqp]
    exact hq hqp

omit [DecidableEq τ] in
/-- A new process is alive, and the others stay so. -/
theorem Ps.ProcessAdded.alive (h : s.ProcessAdded p parent s') (hp : p ∉ s.processes) :
    s'.alive = insert p s.alive := by
  have href : (createdHeader .OBJECT_TYPE_PROCESS).RefCount ≠ 0 := by decide
  ext q
  rw [Ps.mem_alive, h.processes, Finset.mem_insert, Finset.mem_insert, Ps.mem_alive]
  by_cases hq : q = p
  · subst hq
    rw [h.header]
    simp [href]
  · obtain ⟨r, hqr⟩ := h.other q hq
    rw [hqr]
    simp [hq]

omit [DecidableEq τ] in
/-- Locks that are free stay free when a process is created. -/
theorem Ps.ProcessAdded.locks (h : s.ProcessAdded p parent s')
    (hq : q ≠ p → (s.eprocess q).ProcessLock = .free) : (s'.eprocess q).ProcessLock = .free := by
  by_cases hqp : q = p
  · subst hqp
    exact h.processLock
  · obtain ⟨r, hqr⟩ := h.other q hqp
    rw [hqr]
    exact hq hqp

/-- Who owns system pages after a thread has been created. -/
theorem Ps.ThreadAdded.owns (h : s.ThreadAdded t p s') (hp : p ∈ s.processes) {o : τ ⊕ UInt32}
    (ho : s'.Owns sys o) : o = .inl t ∨ s.Owns sys o ∧ s'.area o = s.area o := by
  cases o with
  | inl i =>
    obtain ⟨hi, hf⟩ := ho
    by_cases hit : i = t
    · exact Or.inl (congrArg Sum.inl hit)
    · rw [h.threads] at hi
      rw [h.other i hit] at hf
      exact Or.inr ⟨⟨(Finset.mem_insert.mp hi).resolve_left hit, hf⟩,
        by simp only [Ps.area, h.other i hit]⟩
  | inr q =>
    obtain ⟨hq, hne⟩ := ho
    obtain ⟨hqp, href⟩ := Ps.mem_alive.mp hq
    rw [h.processes] at hqp
    by_cases hqq : q = p
    · subst hqq
      rw [h.self] at href
      exact Or.inr ⟨⟨Ps.mem_alive.mpr ⟨hqp, href⟩, hne⟩, by simp only [Ps.area, h.self]⟩
    · rw [h.rest q hqq] at href
      exact Or.inr ⟨⟨Ps.mem_alive.mpr ⟨hqp, href⟩, hne⟩, by simp only [Ps.area, h.rest q hqq]⟩

/-- **Creating a thread keeps the invariant.** -/
theorem PsInvariant.threadAdded (h : PsInvariant idle sys noDebt s) (hadd : s.ThreadAdded t p s')
    (ht : t ∉ s.threads) (hp : p ∈ s.alive) : PsInvariant idle sys noDebt s' := by
  obtain ⟨hcount, hstack, hkeep, hapart⟩ :=
    mmAllocateSystemPtes_holds (by decide) h.pteCount hadd.stack
  refine h.addThread ht hp hadd.threads hadd.processes hadd.pid hadd.flags hadd.process hadd.other
    (fun q => ?_) (fun q _ => ?_) (fun q _ => ?_) hcount hkeep hstack hapart
  · by_cases hq : q = p
    · subst hq
      exact ⟨_, _, _, _, hadd.self⟩
    · exact ⟨_, _, _, _, hadd.rest q hq⟩
  · by_cases hq : q = p
    · subst hq
      rw [hadd.self, owes, if_pos rfl]
    · rw [hadd.rest q hq, owes, if_neg hq]
      rfl
  · by_cases hq : q = p
    · subst hq
      rw [hadd.self, owes, if_pos rfl]
      rfl
    · rw [hadd.rest q hq, owes, if_neg hq]
      simp

omit [DecidableEq τ] in
/-- Who owns system pages after a process has been created. -/
theorem Ps.ProcessAdded.owns (h : s.ProcessAdded p parent s') {o : τ ⊕ UInt32}
    (ho : s'.Owns sys o) : o = .inr p ∨ s.Owns sys o ∧ s'.area o = s.area o := by
  cases o with
  | inl i =>
    obtain ⟨hi, hf⟩ := ho
    rw [h.threads] at hi
    rw [h.ethread] at hf
    exact Or.inr ⟨⟨hi, hf⟩, by simp only [Ps.area, h.ethread]⟩
  | inr q =>
    by_cases hq : q = p
    · exact Or.inl (congrArg Sum.inr hq)
    · obtain ⟨hqa, hne⟩ := ho
      obtain ⟨hqp, href⟩ := Ps.mem_alive.mp hqa
      obtain ⟨r, hqr⟩ := h.other q hq
      rw [h.processes] at hqp
      rw [hqr] at href
      exact Or.inr ⟨⟨Ps.mem_alive.mpr ⟨(Finset.mem_insert.mp hqp).resolve_left hq, href⟩, hne⟩,
        by simp only [Ps.area, hqr]⟩

omit [DecidableEq τ] in
/-- **The three pages of a new process**: the directory is its own, and the other two lie apart from
everything that has been handed out. -/
theorem Ps.ProcessAdded.handsOut (h : s.ProcessAdded p parent s')
    (hcount : s.systemPtes.bitmap.BitCount = systemPteCount) :
    s'.systemPtes.bitmap.BitCount = systemPteCount
      ∧ (∀ a, s.systemPtes.Holds a → s'.systemPtes.Holds a)
      ∧ s'.systemPtes.Holds ((s'.eprocess p).DirectoryTableBase, 1)
      ∧ (∀ a, 0 < a.2 → s.systemPtes.Holds a → Apart ((s'.eprocess p).DirectoryTableBase, 1) a)
      ∧ ∃ table, ¬ s.systemPtes.Marked table ∧ s'.systemPtes.Holds (table, 1)
        ∧ Apart ((s'.eprocess p).DirectoryTableBase, 1) (table, 1)
        ∧ ∀ a, 0 < a.2 → s.systemPtes.Holds a → Apart (table, 1) a := by
  obtain ⟨table, ptes₁, ptes₂, page, htable, hdirectory, hpage⟩ := h.pages
  obtain ⟨hcount₁, hholds₁, hkeep₁, hapart₁⟩ :=
    mmAllocateSystemPtes_holds Nat.zero_lt_one hcount htable
  obtain ⟨hcount₂, hholds₂, hkeep₂, hapart₂⟩ :=
    mmAllocateSystemPtes_holds Nat.zero_lt_one hcount₁ hdirectory
  obtain ⟨hcount₃, -, hkeep₃, -⟩ :=
    mmAllocateSystemPtes_holds Nat.zero_lt_one hcount₂ hpage
  refine ⟨hcount₃, fun a ha => hkeep₃ a (hkeep₂ a (hkeep₁ a ha)), hkeep₃ _ hholds₂,
    fun a hpos ha => hapart₂ a hpos (hkeep₁ a ha), table,
    mmAllocateSystemPtes_unmarked htable, hkeep₃ _ (hkeep₂ _ hholds₁),
    hapart₂ _ Nat.zero_lt_one hholds₁, hapart₁⟩

omit [DecidableEq τ] in
/-- **Creating a process keeps the invariant.** -/
theorem PsInvariant.processAdded (h : PsInvariant idle sys noDebt s)
    (hadd : s.ProcessAdded p parent s') (hp : p ∉ s.processes) (hnull : p ≠ NULL)
    (hparent : parent ≠ NULL → parent ∈ s.alive) : PsInvariant idle sys noDebt s' := by
  obtain ⟨hcount, hkeep, hdirectory, hapart, -⟩ := hadd.handsOut h.pteCount
  have hps : p ≠ sys := by
    rintro rfl
    exact hp (Ps.mem_processes_of_alive h.system)
  refine h.addProcess hp hnull hps hadd.threads hadd.ethread hadd.processes hadd.header hadd.flags
    hadd.counters ?_ hadd.pid hadd.pidOther hadd.other (fun q hq => ?_) hcount hkeep hdirectory hapart
  · rw [hadd.child]
    exact hparent
  · rw [hadd.child]
    refine hadd.protect q ?_ (h.ne_null hq)
    rintro rfl
    exact hp (Ps.mem_processes_of_alive hq)

end KaushOS
