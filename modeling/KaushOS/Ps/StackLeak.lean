import KaushOS.Ps.MachineInvariant

/-! # The fourth page of a user stack

`PspAllocateThread` allocates `THREAD_USER_STACK_SIZE + 1` user pages for the stack of a thread, and
`PsCloseThread` frees `THREAD_USER_STACK_SIZE` of them. The last page of the stack stays marked and
mapped, so that a thread that comes and goes never leaves the pool as it was.

* **`Ps.pspCreateThread_pool`, `psCloseThread_pool`** — what the two do to the bitmaps of the pools.
* **`thread_not_neutral`** — no creation and closing of a thread is neutral.
* **`ThreadCycles.free`** — every cycle costs the pool one page, so that it runs out. -/

namespace KaushOS

variable {τ : Type} {idle current current' t : τ} {p currentProcess currentProcess' : UInt32}
  {s s' s₁ s₂ s₃ : Ps τ}

/-! ## Stores that leave the pools alone -/

/-- **The user PTE pools are the same**: their bits, and which process has which. -/
structure Ps.SamePools (s s' : Ps τ) : Prop where
  bitmap : s'.userBitmap = s.userBitmap
  pool : ∀ q, (s'.eprocess q).UserPtePool = (s.eprocess q).UserPtePool

theorem Ps.SamePools.refl (s : Ps τ) : s.SamePools s := ⟨rfl, fun _ => rfl⟩

theorem Ps.SamePools.trans (h : s.SamePools s₁) (h' : s₁.SamePools s₂) : s.SamePools s₂ :=
  ⟨h'.bitmap.trans h.bitmap, fun q => (h'.pool q).trans (h.pool q)⟩

/-- A store to other members of a process. -/
theorem Ps.SamePools.modifyProcess (h : s.SamePools s') {f : EPROCESS τ → EPROCESS τ}
    (hf : ∀ e, (f e).UserPtePool = e.UserPtePool) : s.SamePools (s'.modifyProcess p f) := by
  refine ⟨h.bitmap, fun q => ?_⟩
  by_cases hq : q = p
  · subst hq
    simp [Ps.modifyProcess, hf, h.pool]
  · simp [Ps.modifyProcess, hq, h.pool]

/-- Writing to the log. -/
theorem Ps.SamePools.record (h : s.SamePools s') (a : PsAction τ) : s.SamePools (s'.record a) :=
  ⟨h.bitmap, h.pool⟩

/-- Using a process object. -/
theorem Ps.SamePools.useProcess (h : s.SamePools s') (p : UInt32) :
    s.SamePools (s'.useProcess p) :=
  h.record _

/-- The end of an address space. -/
theorem mmDeleteProcessAddressSpace_samePools
    (hrun : mmDeleteProcessAddressSpace p s = .ok s') : s.SamePools s' := by
  obtain ⟨ptes, -, hrun⟩ := kernel_bind_eq_ok.mp hrun
  cases hrun
  exact ⟨rfl, fun _ => rfl⟩

/-- The end of a PID. -/
theorem removePid_samePools (hrun : removePid p s = .ok s') : s.SamePools s' := by
  obtain ⟨_, -, hrun⟩ := kernel_bind_eq_ok.mp hrun
  cases hrun
  exact ⟨rfl, fun _ => rfl⟩

/-- The close procedure of a process, if telling the parent leaves the pools alone. -/
theorem pspFreeProcess_samePools {dec : UInt32 → Ps τ → Kernel (Ps τ)}
    (hdec : ∀ q s s', dec q s = .ok s' → s.SamePools s')
    (hrun : pspFreeProcess dec p s = .ok s') : s.SamePools s' := by
  have hstart : s.SamePools (s.useProcess p) := (Ps.SamePools.refl s).useProcess p
  have hbury : ∀ s₁, s.SamePools s₁ → (removePid p (s₁.useProcess p) >>=
      mmDeleteProcessAddressSpace p) = .ok s' → s.SamePools s' := by
    intro s₁ htold hrun
    obtain ⟨s₂, hpid, hdelete⟩ := kernel_bind_eq_ok.mp hrun
    exact ((htold.useProcess p).trans (removePid_samePools hpid)).trans
      (mmDeleteProcessAddressSpace_samePools hdelete)
  simp only [pspFreeProcess] at hrun
  split at hrun
  · split at hrun
    · obtain ⟨s₁, hparent, hrun⟩ := kernel_bind_eq_ok.mp hrun
      exact hbury s₁ (hstart.trans (hdec _ _ _ hparent)) hrun
    · exact hbury _ hstart hrun
  · cases hrun
    exact hstart

/-- Dropping the reference to a process, if telling the parent leaves the pools alone. -/
theorem obDereferenceProcess_samePools {dec : UInt32 → Ps τ → Kernel (Ps τ)}
    (hdec : ∀ q s s', dec q s = .ok s' → s.SamePools s')
    (hrun : obDereferenceProcess dec current p s = .ok s') : s.SamePools s' := by
  obtain ⟨⟨header, remove⟩, -, hrun⟩ := kernel_bind_eq_ok.mp hrun
  have hheader : s.SamePools ((s.useProcess p).modifyProcess p fun e => { e with header }) :=
    ((Ps.SamePools.refl s).useProcess p).modifyProcess fun _ => rfl
  cases remove with
  | false =>
    cases hrun
    exact hheader
  | true =>
    obtain ⟨s₁, hclose, hrun⟩ := kernel_bind_eq_ok.mp hrun
    obtain ⟨_, -, hclose⟩ := kernel_bind_eq_ok.mp hclose
    obtain ⟨_, -, hclose⟩ := kernel_bind_eq_ok.mp hclose
    obtain ⟨_, -, hclose⟩ := kernel_bind_eq_ok.mp hclose
    have hfreed := hheader.trans (pspFreeProcess_samePools hdec hclose)
    cases hrun
    exact ⟨hfreed.bitmap, hfreed.pool⟩

/-- **A decrement leaves the pools alone**, whatever processes go with it. -/
theorem psDecProcessRundownProtect_samePools {n : Nat}
    (hrun : psDecProcessRundownProtect current n p s = .ok s') : s.SamePools s' := by
  induction n generalizing p s s' with
  | zero => cases hrun
  | succ n ih =>
    obtain ⟨_, -, hrun⟩ := kernel_bind_eq_ok.mp hrun
    have hstart := (((Ps.SamePools.refl s).useProcess p).modifyProcess (p := p)
      (f := fun e => { e with RundownProtect := e.RundownProtect - 1 }) fun _ => rfl)
    dsimp only at hrun
    split at hrun
    · obtain ⟨_, -, hrun⟩ := kernel_bind_eq_ok.mp hrun
      exact (hstart.record _).trans (obDereferenceProcess_samePools (fun _ _ _ => ih) hrun)
    · cases hrun
      exact hstart.record _

/-! ## The user stack of a thread -/

variable [DecidableEq τ]

/-- A part that has run attached to another process, whoever held the lock of the dispatcher. -/
theorem attached_run {α : Type} {irql : Nat} {f : Ps τ → Kernel (α × Ps τ)} {a : α}
    (hrun : attached irql current f s = .ok (a, s')) :
    ∃ lock s₁ lock', f { s with DispatcherDataBaseLock := lock } = .ok (a, s₁)
      ∧ s' = { s₁ with DispatcherDataBaseLock := lock' } := by
  obtain ⟨lock, -, hrun⟩ := kernel_bind_eq_ok.mp hrun
  obtain ⟨⟨b, s₁⟩, hf, hrun⟩ := kernel_bind_eq_ok.mp hrun
  obtain ⟨lock', -, hrun⟩ := kernel_bind_eq_ok.mp hrun
  cases hrun
  exact ⟨lock, s₁, lock', hf, rfl⟩

/-- **The user stack at page `i` of the pool of `p`**: four pages that were clear are marked, and
the thread `t` has got them. -/
structure Ps.StackTaken (t : τ) (p : UInt32) (i : Nat) (s s' : Ps τ) : Prop where
  userStack : (s'.ethread t).UserStack = USERPTEPOOL_START + PGSIZE * i
  room : i + (THREAD_USER_STACK_SIZE + 1) ≤ (s.userBitmap (s.eprocess p).UserPtePool).BitCount
  clear : AllIn (s.userBitmap (s.eprocess p).UserPtePool).bits i (THREAD_USER_STACK_SIZE + 1) false
  bitmap : s'.userBitmap (s.eprocess p).UserPtePool
    = { s.userBitmap (s.eprocess p).UserPtePool with
        bits := fillRange (s.userBitmap (s.eprocess p).UserPtePool).bits i
          (THREAD_USER_STACK_SIZE + 1) true }
  pool : ∀ q, (s'.eprocess q).UserPtePool = (s.eprocess q).UserPtePool

omit [DecidableEq τ] in
/-- Stores before and behind that leave the pools alone. -/
theorem Ps.StackTaken.of_samePools {i : Nat} (h : s₁.StackTaken t p i s₂) (hbefore : s.SamePools s₁)
    (hbehind : s₂.SamePools s₃) (hstack : (s₃.ethread t).UserStack = (s₂.ethread t).UserStack) :
    s.StackTaken t p i s₃ := by
  have hpool := hbefore.pool p
  have hbits := hbefore.bitmap
  refine ⟨hstack.trans h.userStack, ?_, ?_, ?_, fun q => ?_⟩
  · rw [← hpool, ← hbits]
    exact h.room
  · rw [← hpool, ← hbits]
    exact h.clear
  · rw [← hpool, ← hbits, hbehind.bitmap]
    exact h.bitmap
  · rw [hbehind.pool, h.pool, hbefore.pool]

/-- A new user stack. -/
theorem allocateUserStack_taken {u : Unit} (hrun : allocateUserStack t p s = .ok (u, s')) :
    ∃ i, s.StackTaken t p i s' ∧ (s'.ethread t).ThreadsProcess = (s.ethread t).ThreadsProcess := by
  obtain ⟨memory, bitmap, mapped, halloc, hsome⟩ := mmAllocateUserPtes_spec
    (s.userBitmap (s.eprocess p).UserPtePool) (THREAD_USER_STACK_SIZE + 1) (s.userMapped p)
  simp only [allocateUserStack, halloc, kernel_ok_bind] at hrun
  cases memory with
  | none => cases hrun
  | some stack =>
    cases hrun
    obtain ⟨i, rfl, hroom, hclear, -, rfl, -⟩ := hsome stack rfl
    refine ⟨i, ⟨?_, hroom, hclear, Function.update_self .., fun q => rfl⟩, ?_⟩
    · simp [Ps.modifyThread]
    · simp [Ps.modifyThread]

/-- The stack of a thread that is no clone. -/
theorem giveUserStack_taken (hrun : giveUserStack current currentProcess false t p s = .ok s') :
    ∃ i, s.StackTaken t p i s' ∧ (s'.ethread t).ThreadsProcess = (s.ethread t).ThreadsProcess := by
  simp only [giveUserStack, Bool.false_eq_true, if_false] at hrun
  split at hrun
  · obtain ⟨⟨u, s₁⟩, hattached, hrun⟩ := kernel_bind_eq_ok.mp hrun
    cases hrun
    obtain ⟨lock, s₂, lock', halloc, rfl⟩ := attached_run hattached
    obtain ⟨i, h, hprocess⟩ := allocateUserStack_taken halloc
    exact ⟨i, ⟨h.userStack, h.room, h.clear, h.bitmap, h.pool⟩, hprocess⟩
  · obtain ⟨⟨u, s₁⟩, halloc, hrun⟩ := kernel_bind_eq_ok.mp hrun
    cases hrun
    exact allocateUserStack_taken halloc

/-- **`PspCreateThread` takes four pages** of the pool of the process. -/
theorem Ps.pspCreateThread_pool {signalState : Int}
    (hrun : s.pspCreateThread current currentProcess false signalState t p = .ok s') :
    ∃ i, s.StackTaken t p i s' ∧ (s'.ethread t).ThreadsProcess = p := by
  simp only [Ps.pspCreateThread] at hrun
  obtain ⟨lock, -, hrun⟩ := kernel_bind_eq_ok.mp hrun
  obtain ⟨s₂, hallocate, hrun⟩ := kernel_bind_eq_ok.mp hrun
  obtain ⟨lock', -, hrun⟩ := kernel_bind_eq_ok.mp hrun
  obtain ⟨⟨stack, s₁⟩, hstack, hgive⟩ := kernel_bind_eq_ok.mp hallocate
  obtain ⟨ptes, -, rfl⟩ := allocateSystemPtes_ok hstack
  cases hrun
  obtain ⟨i, h, hprocess⟩ := giveUserStack_taken hgive
  have hbefore : s.SamePools ((s.useProcess p).modifyProcess p
      fun e => { e with ProcessLock := lock }) :=
    ((Ps.SamePools.refl s).useProcess p).modifyProcess fun _ => rfl
  have hbehind : s₂.SamePools _ := ((((Ps.SamePools.refl s₂).modifyProcess (p := p)
    (f := fun e => { e with
      ThreadListHead := e.ThreadListHead ++ [t], ActiveThreads := e.ActiveThreads + 1 })
    fun _ => rfl).useProcess p).modifyProcess (p := p)
    (f := fun e => { e with RundownProtect := e.RundownProtect + 1 }) fun _ => rfl).modifyProcess
    (p := p) (f := fun e => { e with ProcessLock := lock' }) fun _ => rfl
  refine ⟨i, h.of_samePools ⟨hbefore.bitmap, hbefore.pool⟩ ⟨hbehind.bitmap, hbehind.pool⟩ ?_, ?_⟩
  · simp [psIncProcessRundownProtect, Ps.modifyProcess, Ps.modifyThread, Ps.useProcess, Ps.record]
  · simpa [psIncProcessRundownProtect, Ps.modifyProcess, Ps.modifyThread, Ps.useProcess, Ps.record,
      initialThread] using hprocess

/-! ## Closing the thread -/

omit [DecidableEq τ] in
/-- Freeing the kernel stack leaves the pools alone. -/
theorem freeKernelStack_samePools {stack : Nat} (hrun : freeKernelStack t s stack = .ok s') :
    s.SamePools s' := by
  obtain ⟨ptes, -, hrun⟩ := kernel_bind_eq_ok.mp hrun
  cases hrun
  exact ⟨rfl, fun _ => rfl⟩

/-- Leaving the process leaves the pools alone. -/
theorem leaveProcess_samePools (hrun : leaveProcess current p s = .ok s') : s.SamePools s' := by
  obtain ⟨s₁, hdec, hrun⟩ := kernel_bind_eq_ok.mp hrun
  obtain ⟨lock, -, hrun⟩ := kernel_bind_eq_ok.mp hrun
  cases hrun
  have hbefore := (((Ps.SamePools.refl s).useProcess p).modifyProcess (p := p)
    (f := fun e => { e with ActiveThreads := e.ActiveThreads - 1 }) fun _ => rfl)
  exact ((hbefore.trans (psDecProcessRundownProtect_samePools hdec)).useProcess p).modifyProcess
    fun _ => rfl

/-- Taking the thread off the list of its process. -/
theorem removeThread_samePools (hrun : removeThread t p s = .ok s') :
    s.SamePools s' ∧ (s'.ethread t).UserStack = (s.ethread t).UserStack := by
  obtain ⟨flags₁, -, hrun⟩ := kernel_bind_eq_ok.mp hrun
  obtain ⟨flags₂, -, hrun⟩ := kernel_bind_eq_ok.mp hrun
  obtain ⟨flags₃, -, hrun⟩ := kernel_bind_eq_ok.mp hrun
  have hflags : s.SamePools (s.modifyThread t fun e => { e with Flags := flags₃ }) :=
    ⟨rfl, fun _ => rfl⟩
  have hs' := Except.ok.inj hrun
  split at hs'
  · subst hs'
    refine ⟨hflags.modifyProcess fun _ => rfl, ?_⟩
    simp [Ps.modifyProcess, Ps.modifyThread]
  · subst hs'
    refine ⟨hflags, ?_⟩
    simp [Ps.modifyThread]

/-- **The user stack at page `i` of the pool of `p` is freed**: three of its pages are cleared. -/
structure Ps.StackFreed (t : τ) (p : UInt32) (i : Nat) (s s' : Ps τ) : Prop where
  userStack : (s.ethread t).UserStack = USERPTEPOOL_START + PGSIZE * i
  bitmap : s'.userBitmap (s.eprocess p).UserPtePool
    = { s.userBitmap (s.eprocess p).UserPtePool with
        bits := fillRange (s.userBitmap (s.eprocess p).UserPtePool).bits i
          THREAD_USER_STACK_SIZE false }
  pool : ∀ q, (s'.eprocess q).UserPtePool = (s.eprocess q).UserPtePool

omit [DecidableEq τ] in
/-- Stores before and behind that leave the pools alone. -/
theorem Ps.StackFreed.of_samePools {i : Nat} (h : s₁.StackFreed t p i s₂) (hbefore : s.SamePools s₁)
    (hbehind : s₂.SamePools s₃) (hstack : (s₁.ethread t).UserStack = (s.ethread t).UserStack) :
    s.StackFreed t p i s₃ := by
  refine ⟨hstack.symm.trans h.userStack, ?_, fun q => ?_⟩
  · rw [← hbefore.pool p, ← hbefore.bitmap, hbehind.bitmap]
    exact h.bitmap
  · rw [hbehind.pool, h.pool, hbefore.pool]

omit [DecidableEq τ] in
/-- Freeing the user stack gives back three pages. -/
theorem freeUserStack_freed {u : Unit} (hrun : freeUserStack t p s = .ok (u, s')) :
    ∃ i, s.StackFreed t p i s' := by
  obtain ⟨r, hfree, hrun⟩ := kernel_bind_eq_ok.mp hrun
  obtain ⟨i, hstack, -, -, rfl⟩ := mmFreeUserPtes_ok (by decide) hfree
  cases hrun
  exact ⟨i, hstack, Function.update_self .., fun _ => rfl⟩

/-- **`PsCloseThread` gives three pages back** to the pool of the process of the thread. -/
theorem psCloseThread_pool {state : THREAD_STATE}
    (hrun : psCloseThread current currentProcess state t s = .ok s')
    (hp : (s.ethread t).ThreadsProcess = p) : ∃ i, s.StackFreed t p i s' := by
  subst hp
  obtain ⟨_, -, hrun⟩ := kernel_bind_eq_ok.mp hrun
  obtain ⟨_, -, hrun⟩ := kernel_bind_eq_ok.mp hrun
  obtain ⟨_, -, hrun⟩ := kernel_bind_eq_ok.mp hrun
  obtain ⟨_, -, hrun⟩ := kernel_bind_eq_ok.mp hrun
  obtain ⟨_, -, hrun⟩ := kernel_bind_eq_ok.mp hrun
  split at hrun
  · cases hrun
  · obtain ⟨lock, -, hrun⟩ := kernel_bind_eq_ok.mp hrun
    obtain ⟨s₁, hremove, hrun⟩ := kernel_bind_eq_ok.mp hrun
    obtain ⟨⟨u, s₂⟩, hattached, hrun⟩ := kernel_bind_eq_ok.mp hrun
    obtain ⟨s₃, hkernel, hleave⟩ := kernel_bind_eq_ok.mp hrun
    obtain ⟨hremoved, hstack⟩ := removeThread_samePools hremove
    have hbefore : s.SamePools s₁ := by
      refine Ps.SamePools.trans ?_ hremoved
      exact (((Ps.SamePools.refl s).record _).useProcess _).modifyProcess fun _ => rfl
    obtain ⟨held, s₄, held', hfree, rfl⟩ := attached_run hattached
    obtain ⟨i, hfreed⟩ := freeUserStack_freed hfree
    have hbehind := (freeKernelStack_samePools hkernel).trans (leaveProcess_samePools hleave)
    exact ⟨i, hfreed.of_samePools ⟨hbefore.bitmap, hbefore.pool⟩ ⟨hbehind.bitmap, hbehind.pool⟩
      hstack⟩

/-! ## A thread comes and goes -/

/-- **Neutral for the process `p`**: the bitmap of its user PTEs, its mappings in the area of the
user PTEs, and the bitmap of the system PTEs are the same. -/
structure Ps.Neutral (p : UInt32) (s s' : Ps τ) : Prop where
  userBitmap : s'.userBitmap (s'.eprocess p).UserPtePool = s.userBitmap (s.eprocess p).UserPtePool
  userMapped : ∀ page, USERPTEPOOL_START / PGSIZE ≤ page → page < USERPTEPOOL_END / PGSIZE →
    s'.userMapped p page = s.userMapped p page
  systemPtes : s'.systemPtes.bitmap = s.systemPtes.bitmap

/-- **What happens between the creation of the thread and its end**: the thread stays in its
process and keeps its stack, whose pages stay marked. -/
structure Ps.KeepsStack (t : τ) (p : UInt32) (s s' : Ps τ) : Prop where
  process : (s'.ethread t).ThreadsProcess = (s.ethread t).ThreadsProcess
  userStack : (s'.ethread t).UserStack = (s.ethread t).UserStack
  pool : (s'.eprocess p).UserPtePool = (s.eprocess p).UserPtePool
  marked : ∀ i, (s.ethread t).UserStack = USERPTEPOOL_START + PGSIZE * i →
    AllIn (s.userBitmap (s.eprocess p).UserPtePool).bits i (THREAD_USER_STACK_SIZE + 1) true →
    AllIn (s'.userBitmap (s.eprocess p).UserPtePool).bits i (THREAD_USER_STACK_SIZE + 1) true

omit [DecidableEq τ] in
/-- Nothing happens. -/
theorem Ps.KeepsStack.refl (t : τ) (p : UInt32) (s : Ps τ) : s.KeepsStack t p s :=
  ⟨rfl, rfl, rfl, fun _ _ h => h⟩

omit [DecidableEq τ] in
/-- The last page of a stack is none of the three that are freed. -/
theorem Ps.StackFreed.last {i : Nat} (h : s.StackFreed t p i s')
    (hmarked : AllIn (s.userBitmap (s.eprocess p).UserPtePool).bits i
      (THREAD_USER_STACK_SIZE + 1) true) :
    (s'.userBitmap (s.eprocess p).UserPtePool).bits (i + THREAD_USER_STACK_SIZE) = true := by
  rw [h.bitmap]
  show fillRange _ i THREAD_USER_STACK_SIZE false (i + THREAD_USER_STACK_SIZE) = true
  rw [fillRange_of_not (by omega)]
  exact hmarked _ (Nat.le_add_right _ _) (by omega)

/-- **A thread that has come and gone has left a page behind**: the last page of its stack, which
was clear, is marked. -/
theorem thread_leaves_page {signalState : Int} {state : THREAD_STATE}
    (hcreate : s.pspCreateThread current currentProcess false signalState t p = .ok s₁)
    (hkeep : s₁.KeepsStack t p s₂)
    (hclose : psCloseThread current' currentProcess' state t s₂ = .ok s₃) :
    ∃ i, s.StackTaken t p i s₁ ∧ s₂.StackFreed t p i s₃
      ∧ (s.userBitmap (s.eprocess p).UserPtePool).bits (i + THREAD_USER_STACK_SIZE) = false
      ∧ (s₃.userBitmap (s₃.eprocess p).UserPtePool).bits (i + THREAD_USER_STACK_SIZE) = true := by
  obtain ⟨i, htaken, hprocess⟩ := Ps.pspCreateThread_pool hcreate
  obtain ⟨j, hfreed⟩ := psCloseThread_pool hclose (hkeep.process.trans hprocess)
  have hij : i = j := by
    have haddress := (hkeep.userStack.trans htaken.userStack).symm.trans hfreed.userStack
    exact Nat.eq_of_mul_eq_mul_left (by decide) (Nat.add_left_cancel haddress)
  subst hij
  have hmarked : AllIn (s₂.userBitmap (s₂.eprocess p).UserPtePool).bits i
      (THREAD_USER_STACK_SIZE + 1) true := by
    rw [hkeep.pool]
    refine hkeep.marked i htaken.userStack ?_
    rw [htaken.pool, htaken.bitmap]
    exact allIn_fillRange
  refine ⟨i, htaken, hfreed, ?_, ?_⟩
  · exact htaken.clear _ (Nat.le_add_right _ _) (by omega)
  · rw [hfreed.pool]
    exact hfreed.last hmarked

/-- **Creating and closing a thread is never neutral.** -/
theorem thread_not_neutral {signalState : Int} {state : THREAD_STATE}
    (hcreate : s.pspCreateThread current currentProcess false signalState t p = .ok s₁)
    (hkeep : s₁.KeepsStack t p s₂)
    (hclose : psCloseThread current' currentProcess' state t s₂ = .ok s₃) :
    ¬ s.Neutral p s₃ := by
  intro hneutral
  obtain ⟨i, -, -, hclear, hset⟩ := thread_leaves_page hcreate hkeep hclose
  rw [hneutral.userBitmap, hclear] at hset
  cases hset

/-- A process is created, a second thread of the system process comes, and the thread of the new
process closes it. -/
theorem firstThreads_comes_and_goes : ∃ s s₁ s₃ : Ps (Fin 4),
    psCreateProcess 0 4 (.load true 16) 0 8 2 firstThreads.ps = .ok s
      ∧ s.pspCreateThread 0 4 false 0 3 4 = .ok s₁ ∧ psCloseThread 2 8 .TERMINATED 3 s₁ = .ok s₃
      ∧ (s.userBitmap (s.eprocess 4).UserPtePool).bits 7 = false
      ∧ (s₃.userBitmap (s₃.eprocess 4).UserPtePool).bits 7 = true := by
  have hcycle : (psCreateProcess 0 4 (.load true 16) 0 8 2 firstThreads.ps >>= fun s =>
      (s.pspCreateThread 0 4 false 0 3 4 >>= psCloseThread 2 8 .TERMINATED 3).map fun s₃ =>
        ((s.userBitmap (s.eprocess 4).UserPtePool).bits 7,
          (s₃.userBitmap (s₃.eprocess 4).UserPtePool).bits 7)) = .ok (false, true) := by
    decide +kernel
  obtain ⟨s, hprocess, hcycle⟩ := kernel_bind_eq_ok.mp hcycle
  obtain ⟨s₃, hrun, hbits⟩ := kernel_map_eq_ok.mp hcycle
  obtain ⟨s₁, hcreate, hclose⟩ := kernel_bind_eq_ok.mp hrun
  obtain ⟨hclear, hset⟩ := Prod.mk.inj hbits
  exact ⟨s, s₁, s₃, hprocess, hcreate, hclose, hclear, hset⟩

/-- The page that this thread leaves behind. -/
theorem thread_not_neutral_system : ∃ s s₁ s₃ : Ps (Fin 4),
    s.pspCreateThread 0 4 false 0 3 4 = .ok s₁ ∧ psCloseThread 2 8 .TERMINATED 3 s₁ = .ok s₃
      ∧ ¬ s.Neutral 4 s₃ := by
  obtain ⟨s, s₁, s₃, -, hcreate, hclose, -⟩ := firstThreads_comes_and_goes
  exact ⟨s, s₁, s₃, hcreate, hclose, thread_not_neutral hcreate (.refl 3 4 s₁) hclose⟩

/-- **Threads are not neutral**: closing the second thread of the system process leaves a page of its
stack marked. -/
theorem threads_not_neutral : ¬ ∀ (current current' t : Fin 4) (currentProcess currentProcess' p :
    UInt32) (signalState : Int) (state : THREAD_STATE) (s s₁ s₃ : Ps (Fin 4)),
    s.pspCreateThread current currentProcess false signalState t p = .ok s₁ →
      psCloseThread current' currentProcess' state t s₁ = .ok s₃ → s.Neutral p s₃ := by
  intro hall
  obtain ⟨s, s₁, s₃, -, hcreate, hclose, hclear, hset⟩ := firstThreads_comes_and_goes
  have hneutral := hall 0 2 3 4 8 4 0 .TERMINATED s s₁ s₃ hcreate hclose
  rw [hneutral.userBitmap, hclear] at hset
  cases hset

/-! ## Many threads come and go -/

/-- The pages of a pool that are clear. -/
def BITMAP.clearPages (b : BITMAP) : Finset Nat :=
  (Finset.range b.BitCount).filter fun i => b.bits i = false

/-- **Threads of the process `p` come and go**, `n` of them, one after the other; in between the
pools are left alone. -/
inductive ThreadCycles (p : UInt32) : Nat → Ps τ → Ps τ → Prop
  | none {s s' : Ps τ} (hother : s.SamePools s') : ThreadCycles p 0 s s'
  | one {n : Nat} {s s' s₁ s₂ s₃ : Ps τ} {current current' t : τ}
      {currentProcess currentProcess' : UInt32} {signalState : Int} {state : THREAD_STATE}
      (hbefore : ThreadCycles p n s s')
      (hcreate : s'.pspCreateThread current currentProcess false signalState t p = .ok s₁)
      (hclose : psCloseThread current' currentProcess' state t s₁ = .ok s₂)
      (hother : s₂.SamePools s₃) : ThreadCycles p (n + 1) s s₃

/-- Four pages are marked, and three of them are cleared. -/
theorem fillRange_stack {bits : Nat → Bool} {i : Nat}
    (hclear : AllIn bits i (THREAD_USER_STACK_SIZE + 1) false) :
    fillRange (fillRange bits i (THREAD_USER_STACK_SIZE + 1) true) i THREAD_USER_STACK_SIZE false
      = Function.update bits (i + THREAD_USER_STACK_SIZE) true := by
  funext k
  by_cases hk : k = i + THREAD_USER_STACK_SIZE
  · subst hk
    rw [Function.update_self, fillRange_of_not (by omega), fillRange_of_mem (by omega) (by omega)]
  · rw [Function.update_of_ne hk]
    by_cases hmem : i ≤ k ∧ k < i + THREAD_USER_STACK_SIZE
    · rw [fillRange_of_mem hmem.1 hmem.2]
      exact (hclear k hmem.1 (by omega)).symm
    · rw [fillRange_of_not hmem, fillRange_of_not (by omega)]

omit [DecidableEq τ] in
/-- The pool behind one thread: all bits are what they were but the one of the last page. -/
theorem Ps.StackTaken.freed {i : Nat} (h : s.StackTaken t p i s₁) (h' : s₁.StackFreed t p i s₂) :
    s₂.userBitmap (s₂.eprocess p).UserPtePool = { s.userBitmap (s.eprocess p).UserPtePool with
      bits := Function.update (s.userBitmap (s.eprocess p).UserPtePool).bits
        (i + THREAD_USER_STACK_SIZE) true } := by
  rw [h'.pool, h'.bitmap, h.pool, h.bitmap]
  simp only [fillRange_stack h.clear]

/-- Marking a clear page. -/
theorem clearPages_update {b : BITMAP} {i : Nat} (hi : i < b.BitCount) (hclear : b.bits i = false) :
    ({ b with bits := Function.update b.bits i true } : BITMAP).clearPages.card + 1
      = b.clearPages.card := by
  have herase : ({ b with bits := Function.update b.bits i true } : BITMAP).clearPages
      = b.clearPages.erase i := by
    ext k
    by_cases hk : k = i
    · subst hk
      simp [BITMAP.clearPages]
    · simp [BITMAP.clearPages, hk]
  have hmem : i ∈ b.clearPages := Finset.mem_filter.mpr ⟨Finset.mem_range.mpr hi, hclear⟩
  rw [herase, Finset.card_erase_add_one hmem]

/-- **Every thread that has come and gone costs the pool of its process a page**, so that the pool is
used up in the end. -/
theorem ThreadCycles.clearPages {n : Nat} (h : ThreadCycles p n s s') :
    (s'.userBitmap (s'.eprocess p).UserPtePool).clearPages.card + n
      = (s.userBitmap (s.eprocess p).UserPtePool).clearPages.card := by
  induction h with
  | none hother => rw [hother.pool, hother.bitmap, Nat.add_zero]
  | @one n s s' s₁ s₂ s₃ _ _ t _ _ _ _ hbefore hcreate hclose hother ih =>
    obtain ⟨i, htaken, hfreed, hclear, -⟩ := thread_leaves_page hcreate (.refl t p s₁) hclose
    have hroom := htaken.room
    have hlost := clearPages_update (show i + THREAD_USER_STACK_SIZE < _ by omega) hclear
    rw [hother.pool, hother.bitmap, htaken.freed hfreed, ← ih, ← hlost]
    exact Nat.add_right_comm _ n 1

end KaushOS
