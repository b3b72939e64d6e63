import KaushOS.Ps.ProcessRuns
import Mathlib.Data.Finset.Card

/-! # What keeps a process alive

An object is alive while its reference is there. Each process that is alive is protected once for
every thread that belongs to it and once for every child that is alive, and the pages that threads
and processes have got from the system PTEs are theirs alone.

* **`PsInvariant`** — the invariant, up to a debt: decrements that are still to come.
* **`PsInvariant.of_shape`, `PsInvariant.kill`, `PsInvariant.bury`, `PsInvariant.close`,
  `PsInvariant.addThread`, `PsInvariant.addProcess`** — what the stores of the routines do to it.
* **`Descends`** — the chain of ancestors that goes with a process. -/

namespace KaushOS

variable {τ : Type}

/-! ## Counting -/

/-- The threads of a process that have been created and not been closed. -/
def Ps.openThreads (s : Ps τ) (p : UInt32) : Finset τ :=
  s.threads.filter fun t => (s.ethread t).Flags ≠ 0 ∧ (s.ethread t).ThreadsProcess = p

/-- The process objects that are referenced. -/
def Ps.alive (s : Ps τ) : Finset UInt32 :=
  s.processes.filter fun p => (s.eprocess p).header.RefCount ≠ 0

/-- The children of a process. -/
def Ps.children (s : Ps τ) (p : UInt32) : Finset UInt32 :=
  s.alive.filter fun c => (s.eprocess c).Parent = p

/-- One decrement that is still to come, of the process `p`. -/
def owes (p : UInt32) : UInt32 → Nat := fun q => if q = p then 1 else 0

/-- Nothing is still to come. -/
def noDebt : UInt32 → Nat := fun _ => 0

/-- The flags of a thread once it has been created. -/
def threadFlags : UInt32 :=
  THREAD_FLAG_ALLOCATED ||| THREAD_FLAG_INSERTED ||| THREAD_FLAG_CONTEXT_CREATED

/-- The flags of a process once it has been created. -/
def processFlags : UInt32 :=
  PROCESS_FLAG_ALLOCATED ||| PROCESS_FLAG_INSERTED ||| PROCESS_FLAG_FIRST_THREAD_CREATED

/-- Who owns system pages: a thread its kernel stack, a process its page directory. -/
def Ps.Owns (sys : UInt32) (s : Ps τ) : τ ⊕ UInt32 → Prop
  | .inl t => t ∈ s.threads ∧ (s.ethread t).Flags ≠ 0
  | .inr p => p ∈ s.alive ∧ p ≠ sys

/-- The system pages of an owner. -/
def Ps.area (s : Ps τ) : τ ⊕ UInt32 → Nat × Nat
  | .inl t => ((s.ethread t).KernelStack, THREAD_STACK_SIZE)
  | .inr p => ((s.eprocess p).DirectoryTableBase, 1)

/-- **The invariant of processes and threads.** `debt` counts the decrements of each process that
are still to come. The system process is never destroyed, because the idle thread belongs to it. -/
structure PsInvariant (idle : τ) (sys : UInt32) (debt : UInt32 → Nat) (s : Ps τ) : Prop where
  flags : ∀ t ∈ s.threads, (s.ethread t).Flags ≠ 0 → (s.ethread t).Flags = threadFlags
  threadProcess : ∀ t ∈ s.threads, (s.ethread t).Flags ≠ 0 → (s.ethread t).ThreadsProcess ∈ s.alive
  parent : ∀ p ∈ s.alive, (s.eprocess p).Parent ≠ NULL → (s.eprocess p).Parent ∈ s.alive
  notNull : NULL ∉ s.processes
  protect : ∀ p ∈ s.alive, (s.eprocess p).RundownProtect
    = (s.openThreads p).card + (s.children p).card + debt p
  active : ∀ p ∈ s.alive, (s.eprocess p).ActiveThreads = (s.openThreads p).card
  ordinary : ∀ p ∈ s.alive, p ≠ sys →
    (s.eprocess p).header = createdHeader .OBJECT_TYPE_PROCESS
      ∧ (s.eprocess p).Flags = processFlags
      ∧ s.PidTable (s.eprocess p).UniqueProcessId = .object p
  system : sys ∈ s.alive
  idleThread : idle ∈ s.openThreads sys
  pteCount : s.systemPtes.bitmap.BitCount = systemPteCount
  pages : ∀ o, s.Owns sys o → s.systemPtes.Holds (s.area o)
  apart : ∀ o o', s.Owns sys o → s.Owns sys o' → o ≠ o' → Apart (s.area o) (s.area o')

variable {idle : τ} {sys : UInt32} {debt debt' : UInt32 → Nat} {s s' : Ps τ} {p q : UInt32} {t : τ}

theorem Ps.mem_openThreads : t ∈ s.openThreads p
    ↔ t ∈ s.threads ∧ (s.ethread t).Flags ≠ 0 ∧ (s.ethread t).ThreadsProcess = p := by
  rw [Ps.openThreads, Finset.mem_filter]

theorem Ps.mem_alive : p ∈ s.alive ↔ p ∈ s.processes ∧ (s.eprocess p).header.RefCount ≠ 0 := by
  rw [Ps.alive, Finset.mem_filter]

theorem Ps.mem_children : q ∈ s.children p ↔ q ∈ s.alive ∧ (s.eprocess q).Parent = p := by
  rw [Ps.children, Finset.mem_filter]

theorem Ps.mem_processes_of_alive (h : p ∈ s.alive) : p ∈ s.processes := (Ps.mem_alive.mp h).1

/-- A process that is alive is not `NULL`. -/
theorem PsInvariant.ne_null (h : PsInvariant idle sys debt s) (hp : p ∈ s.alive) : p ≠ NULL := by
  rintro rfl
  exact h.notNull (Ps.mem_processes_of_alive hp)

/-- The area of an owner takes at least one page. -/
theorem Ps.area_pos (s : Ps τ) (o : τ ⊕ UInt32) : 0 < (s.area o).2 := by
  cases o with
  | inl t => exact Nat.succ_pos 2
  | inr p => exact Nat.succ_pos 0

/-! ## Stores that keep the shape -/

/-- **The same objects**: what may differ are the two counters of the processes, their locks, lists
and pools, the user stacks, and the log. -/
structure Ps.SameShape (s s' : Ps τ) : Prop where
  threads : s'.threads = s.threads
  processes : s'.processes = s.processes
  pid : s'.PidTable = s.PidTable
  ptes : s'.systemPtes = s.systemPtes
  ethread : ∀ t, (s'.ethread t).Flags = (s.ethread t).Flags
    ∧ (s'.ethread t).ThreadsProcess = (s.ethread t).ThreadsProcess
    ∧ (s'.ethread t).KernelStack = (s.ethread t).KernelStack
  eprocess : ∀ p, (s'.eprocess p).header = (s.eprocess p).header
    ∧ (s'.eprocess p).Flags = (s.eprocess p).Flags
    ∧ (s'.eprocess p).Parent = (s.eprocess p).Parent
    ∧ (s'.eprocess p).DirectoryTableBase = (s.eprocess p).DirectoryTableBase
    ∧ (s'.eprocess p).UniqueProcessId = (s.eprocess p).UniqueProcessId

theorem Ps.SameShape.alive (h : s.SameShape s') : s'.alive = s.alive := by
  ext p
  rw [Ps.mem_alive, Ps.mem_alive, h.processes, (h.eprocess p).1]

theorem Ps.SameShape.openThreads (h : s.SameShape s') (p : UInt32) :
    s'.openThreads p = s.openThreads p := by
  ext t
  rw [Ps.mem_openThreads, Ps.mem_openThreads, h.threads, (h.ethread t).1, (h.ethread t).2.1]

theorem Ps.SameShape.children (h : s.SameShape s') (p : UInt32) :
    s'.children p = s.children p := by
  ext q
  rw [Ps.mem_children, Ps.mem_children, h.alive, (h.eprocess q).2.2.1]

theorem Ps.SameShape.owns (h : s.SameShape s') (o : τ ⊕ UInt32) :
    s'.Owns sys o ↔ s.Owns sys o := by
  cases o with
  | inl t =>
    show t ∈ s'.threads ∧ (s'.ethread t).Flags ≠ 0 ↔ _
    rw [h.threads, (h.ethread t).1]
    exact Iff.rfl
  | inr p =>
    show p ∈ s'.alive ∧ p ≠ sys ↔ _
    rw [h.alive]
    exact Iff.rfl

theorem Ps.SameShape.area (h : s.SameShape s') (o : τ ⊕ UInt32) : s'.area o = s.area o := by
  cases o with
  | inl t => exact congrArg (·, THREAD_STACK_SIZE) (h.ethread t).2.2
  | inr p => exact congrArg (·, 1) (h.eprocess p).2.2.2.1

/-- **Stores that keep the shape keep the invariant**, when the counters agree with the debts. -/
theorem PsInvariant.of_shape (h : PsInvariant idle sys debt s) (hs : s.SameShape s')
    (hprotect : ∀ p ∈ s.alive, (s'.eprocess p).RundownProtect + debt p
      = (s.eprocess p).RundownProtect + debt' p)
    (hactive : ∀ p ∈ s.alive, (s'.eprocess p).ActiveThreads = (s.eprocess p).ActiveThreads) :
    PsInvariant idle sys debt' s' where
  flags t ht hf := by
    rw [(hs.ethread t).1] at hf ⊢
    exact h.flags t (hs.threads ▸ ht) hf
  threadProcess t ht hf := by
    rw [(hs.ethread t).1] at hf
    rw [(hs.ethread t).2.1, hs.alive]
    exact h.threadProcess t (hs.threads ▸ ht) hf
  parent p hp hne := by
    rw [(hs.eprocess p).2.2.1] at hne ⊢
    rw [hs.alive] at hp ⊢
    exact h.parent p hp hne
  notNull := by
    rw [hs.processes]
    exact h.notNull
  protect p hp := by
    rw [hs.alive] at hp
    rw [hs.openThreads, hs.children]
    have hold := h.protect p hp
    have hnew := hprotect p hp
    omega
  active p hp := by
    rw [hs.alive] at hp
    rw [hs.openThreads, hactive p hp]
    exact h.active p hp
  ordinary p hp hne := by
    rw [hs.alive] at hp
    obtain ⟨hheader, hflags, -, -, hpid⟩ := hs.eprocess p
    rw [hheader, hflags, hpid, hs.pid]
    exact h.ordinary p hp hne
  system := by
    rw [hs.alive]
    exact h.system
  idleThread := by
    rw [hs.openThreads]
    exact h.idleThread
  pteCount := by
    rw [hs.ptes]
    exact h.pteCount
  pages o ho := by
    rw [hs.area, hs.ptes]
    exact h.pages o (hs.owns o |>.mp ho)
  apart o o' ho ho' hne := by
    rw [hs.area, hs.area]
    exact h.apart o o' (hs.owns o |>.mp ho) (hs.owns o' |>.mp ho') hne

/-! ## The end of a process -/

/-- Dropping the reference to a process leaves the others alive. -/
theorem Ps.alive_kill (hprocs : s'.processes = s.processes)
    (hdead : (s'.eprocess p).header.RefCount = 0)
    (hother : ∀ q, q ≠ p → s'.eprocess q = s.eprocess q) : s'.alive = s.alive.erase p := by
  ext q
  rw [Ps.mem_alive, Finset.mem_erase, Ps.mem_alive, hprocs]
  by_cases hq : q = p
  · subst hq
    simp [hdead]
  · rw [hother q hq]
    simp [hq]

/-- The children of a process after one process has died. -/
theorem Ps.children_erase (halive : s'.alive = s.alive.erase p)
    (hother : ∀ q, q ≠ p → s'.eprocess q = s.eprocess q) (q : UInt32) :
    s'.children q = (s.children q).erase p := by
  ext c
  rw [Ps.mem_children, Finset.mem_erase, Ps.mem_children, halive, Finset.mem_erase]
  constructor
  · rintro ⟨⟨hne, hc⟩, hparent⟩
    rw [hother c hne] at hparent
    exact ⟨hne, hc, hparent⟩
  · rintro ⟨hne, hc, hparent⟩
    rw [← hother c hne] at hparent
    exact ⟨⟨hne, hc⟩, hparent⟩

/-- **A process without threads and children dies**: its parent loses the protection by it. -/
theorem PsInvariant.kill (h : PsInvariant idle sys noDebt s) (hp : p ∈ s.alive)
    (hthreads : s.openThreads p = ∅) (hchildren : s.children p = ∅)
    (hth : s'.threads = s.threads) (heth : s'.ethread = s.ethread)
    (hprocs : s'.processes = s.processes) (hpid : s'.PidTable = s.PidTable)
    (hptes : s'.systemPtes = s.systemPtes) (hdead : (s'.eprocess p).header.RefCount = 0)
    (hother : ∀ q, q ≠ p → s'.eprocess q = s.eprocess q) :
    PsInvariant idle sys (owes (s.eprocess p).Parent) s' := by
  have halive := Ps.alive_kill hprocs hdead hother
  have hopen : ∀ q, s'.openThreads q = s.openThreads q := by
    intro q
    rw [Ps.openThreads, Ps.openThreads, hth, heth]
  have hback : ∀ q ∈ s'.alive, q ≠ p ∧ q ∈ s.alive := by
    intro q hq
    rw [halive] at hq
    exact Finset.mem_erase.mp hq
  have howns : ∀ o, s'.Owns sys o → s.Owns sys o ∧ s'.area o = s.area o := by
    intro o ho
    cases o with
    | inl t =>
      obtain ⟨ht, hf⟩ := ho
      rw [hth] at ht
      rw [heth] at hf
      refine ⟨⟨ht, hf⟩, ?_⟩
      show ((s'.ethread t).KernelStack, _) = _
      rw [heth]
      rfl
    | inr q =>
      obtain ⟨hq, hne⟩ := ho
      obtain ⟨hqp, hqa⟩ := hback q hq
      refine ⟨⟨hqa, hne⟩, ?_⟩
      show ((s'.eprocess q).DirectoryTableBase, _) = _
      rw [hother q hqp]
      rfl
  have hsys : sys ≠ p := by
    rintro rfl
    have hidle := h.idleThread
    rw [hthreads] at hidle
    exact Finset.notMem_empty _ hidle
  constructor
  · rw [hth, heth]
    exact h.flags
  · intro t ht hf
    rw [hth] at ht
    rw [heth] at hf ⊢
    rw [halive]
    refine Finset.mem_erase.mpr ⟨?_, h.threadProcess t ht hf⟩
    rintro rfl
    have hmem : t ∈ s.openThreads (s.ethread t).ThreadsProcess :=
      Ps.mem_openThreads.mpr ⟨ht, hf, rfl⟩
    rw [hthreads] at hmem
    exact Finset.notMem_empty _ hmem
  · intro q hq hne
    obtain ⟨hqp, hqa⟩ := hback q hq
    rw [hother q hqp] at hne ⊢
    rw [halive]
    refine Finset.mem_erase.mpr ⟨?_, h.parent q hqa hne⟩
    intro hparent
    have hmem : q ∈ s.children p := Ps.mem_children.mpr ⟨hqa, hparent⟩
    rw [hchildren] at hmem
    exact Finset.notMem_empty _ hmem
  · rw [hprocs]
    exact h.notNull
  · intro q hq
    obtain ⟨hqp, hqa⟩ := hback q hq
    rw [hother q hqp, hopen, Ps.children_erase halive hother, h.protect q hqa]
    by_cases hparent : q = (s.eprocess p).Parent
    · have hmem : p ∈ s.children q := Ps.mem_children.mpr ⟨hp, hparent.symm⟩
      have hcard := Finset.card_erase_add_one hmem
      rw [owes, if_pos hparent, noDebt]
      omega
    · have hmem : p ∉ s.children q := fun hmem => hparent (Ps.mem_children.mp hmem).2.symm
      rw [Finset.erase_eq_of_notMem hmem, owes, if_neg hparent, noDebt]
  · intro q hq
    obtain ⟨hqp, hqa⟩ := hback q hq
    rw [hother q hqp, hopen]
    exact h.active q hqa
  · intro q hq hne
    obtain ⟨hqp, hqa⟩ := hback q hq
    rw [hother q hqp, hpid]
    exact h.ordinary q hqa hne
  · rw [halive]
    exact Finset.mem_erase.mpr ⟨hsys, h.system⟩
  · rw [hopen]
    exact h.idleThread
  · rw [hptes]
    exact h.pteCount
  · intro o ho
    obtain ⟨ho, harea⟩ := howns o ho
    rw [harea, hptes]
    exact h.pages o ho
  · intro o o' ho ho' hne
    obtain ⟨ho, harea⟩ := howns o ho
    obtain ⟨ho', harea'⟩ := howns o' ho'
    rw [harea, harea']
    exact h.apart o o' ho ho' hne

/-- **A dead process is buried**: its PID, its page directory and its memory go. -/
theorem PsInvariant.bury (h : PsInvariant idle sys debt s) (hp : p ∉ s.alive)
    (hth : s'.threads = s.threads) (heth : s'.ethread = s.ethread)
    (hprocs : s'.processes = s.processes.erase p) (hep : s'.eprocess = s.eprocess)
    (hpid : ∀ i q, q ≠ p → s.PidTable i = .object q → s'.PidTable i = .object q)
    (hcount : s'.systemPtes.bitmap.BitCount = systemPteCount)
    (hholds : ∀ o, s.Owns sys o → s'.systemPtes.Holds (s.area o)) :
    PsInvariant idle sys debt s' := by
  have halive : s'.alive = s.alive := by
    ext q
    rw [Ps.mem_alive, hprocs, hep, Finset.mem_erase, and_assoc, ← Ps.mem_alive]
    exact ⟨And.right, fun hq => ⟨fun e => hp (e ▸ hq), hq⟩⟩
  have hopen : ∀ q, s'.openThreads q = s.openThreads q := by
    intro q
    rw [Ps.openThreads, Ps.openThreads, hth, heth]
  have hchildren : ∀ q, s'.children q = s.children q := by
    intro q
    rw [Ps.children, Ps.children, halive, hep]
  have howns : ∀ o, s'.Owns sys o → s.Owns sys o ∧ s'.area o = s.area o := by
    intro o ho
    cases o with
    | inl t =>
      obtain ⟨ht, hf⟩ := ho
      rw [hth] at ht
      rw [heth] at hf
      exact ⟨⟨ht, hf⟩, by simp only [Ps.area, heth]⟩
    | inr q =>
      obtain ⟨hq, hne⟩ := ho
      rw [halive] at hq
      exact ⟨⟨hq, hne⟩, by simp only [Ps.area, hep]⟩
  constructor
  · rw [hth, heth]
    exact h.flags
  · rw [hth, heth, halive]
    exact h.threadProcess
  · rw [halive, hep]
    exact h.parent
  · rw [hprocs]
    exact fun hmem => h.notNull (Finset.mem_of_mem_erase hmem)
  · intro q hq
    rw [halive] at hq
    rw [hep, hopen, hchildren]
    exact h.protect q hq
  · intro q hq
    rw [halive] at hq
    rw [hep, hopen]
    exact h.active q hq
  · intro q hq hne
    rw [halive] at hq
    obtain ⟨hheader, hflags, hentry⟩ := h.ordinary q hq hne
    rw [hep]
    exact ⟨hheader, hflags, hpid _ q (fun e => hp (e ▸ hq)) hentry⟩
  · rw [halive]
    exact h.system
  · rw [hopen]
    exact h.idleThread
  · exact hcount
  · intro o ho
    obtain ⟨ho, harea⟩ := howns o ho
    rw [harea]
    exact hholds o ho
  · intro o o' ho ho' hne
    obtain ⟨ho, harea⟩ := howns o ho
    obtain ⟨ho', harea'⟩ := howns o' ho'
    rw [harea, harea']
    exact h.apart o o' ho ho' hne

/-! ## The end of a thread -/

section Threads

variable [DecidableEq τ]

/-- The open threads of a process after a thread has been closed. -/
theorem Ps.openThreads_close (hth : s'.threads = s.threads) (hself : (s'.ethread t).Flags = 0)
    (hother : ∀ i, i ≠ t → s'.ethread i = s.ethread i) (q : UInt32) :
    s'.openThreads q = (s.openThreads q).erase t := by
  ext i
  rw [Ps.mem_openThreads, Finset.mem_erase, Ps.mem_openThreads, hth]
  by_cases hi : i = t
  · subst hi
    simp [hself]
  · rw [hother i hi]
    simp [hi]

/-- **A thread is closed**: its process is owed a decrement. -/
theorem PsInvariant.close (h : PsInvariant idle sys noDebt s) (ht : t ∈ s.threads)
    (hf : (s.ethread t).Flags ≠ 0) (hidle : idle ≠ t) (hth : s'.threads = s.threads)
    (hprocs : s'.processes = s.processes) (hpid : s'.PidTable = s.PidTable)
    (hself : (s'.ethread t).Flags = 0) (hother : ∀ i, i ≠ t → s'.ethread i = s.ethread i)
    (hep : ∀ q, ∃ lock list active, s'.eprocess q =
      { s.eprocess q with
        ProcessLock := lock, ThreadListHead := list, ActiveThreads := active })
    (hactive : ∀ q ∈ s.alive, (s'.eprocess q).ActiveThreads + owes (s.ethread t).ThreadsProcess q
      = (s.eprocess q).ActiveThreads)
    (hcount : s'.systemPtes.bitmap.BitCount = systemPteCount)
    (hholds : ∀ o, s.Owns sys o → o ≠ .inl t → s'.systemPtes.Holds (s.area o)) :
    PsInvariant idle sys (owes (s.ethread t).ThreadsProcess) s' := by
  have halive : s'.alive = s.alive := by
    ext q
    obtain ⟨lock, list, active, hq⟩ := hep q
    rw [Ps.mem_alive, Ps.mem_alive, hprocs, hq]
  have hopen := Ps.openThreads_close hth hself hother
  have hchildren : ∀ q, s'.children q = s.children q := by
    intro q
    ext c
    obtain ⟨lock, list, active, hc⟩ := hep c
    rw [Ps.mem_children, Ps.mem_children, halive, hc]
  have hmem : t ∈ s.openThreads (s.ethread t).ThreadsProcess :=
    Ps.mem_openThreads.mpr ⟨ht, hf, rfl⟩
  have hcard : ∀ q, ((s.openThreads q).erase t).card + owes (s.ethread t).ThreadsProcess q
      = (s.openThreads q).card := by
    intro q
    by_cases hq : q = (s.ethread t).ThreadsProcess
    · subst hq
      rw [owes, if_pos rfl]
      exact Finset.card_erase_add_one hmem
    · have hnot : t ∉ s.openThreads q := fun hmem => hq (Ps.mem_openThreads.mp hmem).2.2.symm
      rw [Finset.erase_eq_of_notMem hnot, owes, if_neg hq]
      rfl
  have howns : ∀ o, s'.Owns sys o → s.Owns sys o ∧ s'.area o = s.area o ∧ o ≠ .inl t := by
    intro o ho
    cases o with
    | inl i =>
      obtain ⟨hi, hfi⟩ := ho
      have hit : i ≠ t := by
        rintro rfl
        exact hfi hself
      rw [hth] at hi
      rw [hother i hit] at hfi
      refine ⟨⟨hi, hfi⟩, by simp only [Ps.area, hother i hit], fun e => hit (Sum.inl.inj e)⟩
    | inr q =>
      obtain ⟨hq, hne⟩ := ho
      obtain ⟨lock, list, active, heq⟩ := hep q
      rw [halive] at hq
      exact ⟨⟨hq, hne⟩, by simp only [Ps.area, heq], Sum.inr_ne_inl⟩
  constructor
  · intro i hi hfi
    have hit : i ≠ t := by
      rintro rfl
      exact hfi hself
    rw [hother i hit] at hfi ⊢
    exact h.flags i (hth ▸ hi) hfi
  · intro i hi hfi
    have hit : i ≠ t := by
      rintro rfl
      exact hfi hself
    rw [hother i hit] at hfi ⊢
    rw [halive]
    exact h.threadProcess i (hth ▸ hi) hfi
  · intro q hq hne
    obtain ⟨lock, list, active, heq⟩ := hep q
    rw [heq] at hne ⊢
    rw [halive] at hq ⊢
    exact h.parent q hq hne
  · rw [hprocs]
    exact h.notNull
  · intro q hq
    obtain ⟨lock, list, active, heq⟩ := hep q
    rw [halive] at hq
    have hold := h.protect q hq
    have hone := hcard q
    rw [hopen, hchildren, heq, hold, noDebt]
    omega
  · intro q hq
    rw [halive] at hq
    have hold := h.active q hq
    have hnew := hactive q hq
    have hone := hcard q
    rw [hopen]
    omega
  · intro q hq hne
    obtain ⟨lock, list, active, heq⟩ := hep q
    rw [halive] at hq
    rw [heq, hpid]
    exact h.ordinary q hq hne
  · rw [halive]
    exact h.system
  · rw [hopen]
    exact Finset.mem_erase.mpr ⟨hidle, h.idleThread⟩
  · exact hcount
  · intro o ho
    obtain ⟨ho, harea, hne⟩ := howns o ho
    rw [harea]
    exact hholds o ho hne
  · intro o o' ho ho' hne
    obtain ⟨ho, harea, -⟩ := howns o ho
    obtain ⟨ho', harea', -⟩ := howns o' ho'
    rw [harea, harea']
    exact h.apart o o' ho ho' hne

/-- **The memory of a closed thread is given back.** -/
theorem PsInvariant.eraseThread (h : PsInvariant idle sys debt s) (hf : (s.ethread t).Flags = 0) :
    PsInvariant idle sys debt { s with threads := s.threads.erase t } := by
  have hmem : ∀ i, (s.ethread i).Flags ≠ 0 → (i ∈ s.threads.erase t ↔ i ∈ s.threads) := by
    intro i hi
    rw [Finset.mem_erase, and_iff_right]
    rintro rfl
    exact hi hf
  have hopen : ∀ q, Ps.openThreads { s with threads := s.threads.erase t } q = s.openThreads q := by
    intro q
    ext i
    rw [Ps.mem_openThreads, Ps.mem_openThreads]
    exact and_congr_left fun hi => hmem i hi.1
  have howns : ∀ o, Ps.Owns sys { s with threads := s.threads.erase t } o → s.Owns sys o := by
    intro o ho
    cases o with
    | inl i => exact ⟨(hmem i ho.2).mp ho.1, ho.2⟩
    | inr q => exact ho
  constructor
  · exact fun i hi hfi => h.flags i ((hmem i hfi).mp hi) hfi
  · exact fun i hi hfi => h.threadProcess i ((hmem i hfi).mp hi) hfi
  · exact h.parent
  · exact h.notNull
  · intro q hq
    rw [hopen]
    exact h.protect q hq
  · intro q hq
    rw [hopen]
    exact h.active q hq
  · exact h.ordinary
  · exact h.system
  · rw [hopen]
    exact h.idleThread
  · exact h.pteCount
  · exact fun o ho => h.pages o (howns o ho)
  · exact fun o o' ho ho' => h.apart o o' (howns o ho) (howns o' ho')

/-- **A thread is created** in a process that is alive, with a kernel stack of its own. -/
theorem PsInvariant.addThread (h : PsInvariant idle sys noDebt s) (ht : t ∉ s.threads)
    (hp : p ∈ s.alive) (hth : s'.threads = insert t s.threads) (hprocs : s'.processes = s.processes)
    (hpid : s'.PidTable = s.PidTable) (hflags : (s'.ethread t).Flags = threadFlags)
    (hprocess : (s'.ethread t).ThreadsProcess = p)
    (hother : ∀ i, i ≠ t → s'.ethread i = s.ethread i)
    (hep : ∀ q, ∃ lock list active r, s'.eprocess q =
      { s.eprocess q with
        ProcessLock := lock, ThreadListHead := list, ActiveThreads := active, RundownProtect := r })
    (hactive : ∀ q ∈ s.alive, (s'.eprocess q).ActiveThreads
      = (s.eprocess q).ActiveThreads + owes p q)
    (hprotect : ∀ q ∈ s.alive, (s'.eprocess q).RundownProtect
      = (s.eprocess q).RundownProtect + owes p q)
    (hcount : s'.systemPtes.bitmap.BitCount = systemPteCount)
    (hholds : ∀ a, s.systemPtes.Holds a → s'.systemPtes.Holds a)
    (hstack : s'.systemPtes.Holds ((s'.ethread t).KernelStack, THREAD_STACK_SIZE))
    (hapart : ∀ a, 0 < a.2 → s.systemPtes.Holds a →
      Apart ((s'.ethread t).KernelStack, THREAD_STACK_SIZE) a) :
    PsInvariant idle sys noDebt s' := by
  have hne : ∀ i ∈ s.threads, i ≠ t := by
    rintro i hi rfl
    exact ht hi
  have halive : s'.alive = s.alive := by
    ext q
    obtain ⟨lock, list, active, r, hq⟩ := hep q
    rw [Ps.mem_alive, Ps.mem_alive, hprocs, hq]
  have hflagsne : (s'.ethread t).Flags ≠ 0 := by
    rw [hflags]
    decide
  have hopen : ∀ q, s'.openThreads q
      = if q = p then insert t (s.openThreads q) else s.openThreads q := by
    intro q
    ext i
    rw [Ps.mem_openThreads, hth, Finset.mem_insert]
    by_cases hi : i = t
    · subst hi
      have hnot : i ∉ s.openThreads q := fun hmem => ht (Ps.mem_openThreads.mp hmem).1
      rw [hprocess]
      split
      · rename_i hq
        simp [hq, hflagsne]
      · rename_i hq
        simp [hnot, Ne.symm hq]
    · rw [hother i hi]
      split
      · simp [Ps.mem_openThreads, hi]
      · simp [Ps.mem_openThreads, hi]
  have hcard : ∀ q, (s'.openThreads q).card = (s.openThreads q).card + owes p q := by
    intro q
    rw [hopen]
    by_cases hq : q = p
    · have hnot : t ∉ s.openThreads q := fun hmem => ht (Ps.mem_openThreads.mp hmem).1
      rw [if_pos hq, Finset.card_insert_of_notMem hnot, owes, if_pos hq]
    · rw [if_neg hq, owes, if_neg hq]
      rfl
  have hchildren : ∀ q, s'.children q = s.children q := by
    intro q
    ext c
    obtain ⟨lock, list, active, r, hc⟩ := hep c
    rw [Ps.mem_children, Ps.mem_children, halive, hc]
  have howns : ∀ o, s'.Owns sys o → o = .inl t ∨ s.Owns sys o ∧ s'.area o = s.area o := by
    intro o ho
    cases o with
    | inl i =>
      by_cases hi : i = t
      · exact Or.inl (congrArg Sum.inl hi)
      · obtain ⟨him, hfi⟩ := ho
        rw [hth] at him
        rw [hother i hi] at hfi
        exact Or.inr ⟨⟨(Finset.mem_insert.mp him).resolve_left hi, hfi⟩,
          by simp only [Ps.area, hother i hi]⟩
    | inr q =>
      obtain ⟨hq, hqs⟩ := ho
      obtain ⟨lock, list, active, r, heq⟩ := hep q
      rw [halive] at hq
      exact Or.inr ⟨⟨hq, hqs⟩, by simp only [Ps.area, heq]⟩
  constructor
  · intro i hi hfi
    by_cases hit : i = t
    · rw [hit]
      exact hflags
    · rw [hother i hit] at hfi ⊢
      rw [hth] at hi
      exact h.flags i ((Finset.mem_insert.mp hi).resolve_left hit) hfi
  · intro i hi hfi
    rw [halive]
    by_cases hit : i = t
    · rw [hit, hprocess]
      exact hp
    · rw [hother i hit] at hfi ⊢
      rw [hth] at hi
      exact h.threadProcess i ((Finset.mem_insert.mp hi).resolve_left hit) hfi
  · intro q hq hqn
    obtain ⟨lock, list, active, r, heq⟩ := hep q
    rw [heq] at hqn ⊢
    rw [halive] at hq ⊢
    exact h.parent q hq hqn
  · rw [hprocs]
    exact h.notNull
  · intro q hq
    rw [halive] at hq
    rw [hprotect q hq, hchildren, hcard, h.protect q hq]
    push_cast
    rw [noDebt]
    omega
  · intro q hq
    rw [halive] at hq
    rw [hactive q hq, hcard, h.active q hq]
  · intro q hq hqs
    obtain ⟨lock, list, active, r, heq⟩ := hep q
    rw [halive] at hq
    rw [heq, hpid]
    exact h.ordinary q hq hqs
  · rw [halive]
    exact h.system
  · rw [hopen]
    have hidle := h.idleThread
    split
    · exact Finset.mem_insert_of_mem hidle
    · exact hidle
  · exact hcount
  · intro o ho
    rcases howns o ho with rfl | ⟨ho, harea⟩
    · exact hstack
    · rw [harea]
      exact hholds _ (h.pages o ho)
  · intro o o' ho ho' hoo
    rcases howns o ho with rfl | ⟨ho, harea⟩
    · rcases howns o' ho' with rfl | ⟨ho', harea'⟩
      · exact absurd rfl hoo
      · rw [harea']
        exact hapart _ (s.area_pos o') (h.pages o' ho')
    · rcases howns o' ho' with rfl | ⟨ho', harea'⟩
      · rw [harea]
        exact (hapart _ (s.area_pos o) (h.pages o ho)).symm
      · rw [harea, harea']
        exact h.apart o o' ho ho' hoo

omit [DecidableEq τ] in
/-- **A process is created**, with a page directory of its own; its parent gets a protection. -/
theorem PsInvariant.addProcess (h : PsInvariant idle sys noDebt s) (hp : p ∉ s.processes)
    (hnull : p ≠ NULL) (hps : p ≠ sys) (hth : s'.threads = s.threads)
    (heth : s'.ethread = s.ethread) (hprocs : s'.processes = insert p s.processes)
    (hheader : (s'.eprocess p).header = createdHeader .OBJECT_TYPE_PROCESS)
    (hflags : (s'.eprocess p).Flags = processFlags)
    (hcounters : (s'.eprocess p).RundownProtect = 0 ∧ (s'.eprocess p).ActiveThreads = 0)
    (hparent : (s'.eprocess p).Parent ≠ NULL → (s'.eprocess p).Parent ∈ s.alive)
    (hpid : s'.PidTable (s'.eprocess p).UniqueProcessId = .object p)
    (hpidother : ∀ i q, s.PidTable i = .object q → s'.PidTable i = .object q)
    (hother : ∀ q, q ≠ p → ∃ r, s'.eprocess q = { s.eprocess q with RundownProtect := r })
    (hprotect : ∀ q ∈ s.alive, (s'.eprocess q).RundownProtect
      = (s.eprocess q).RundownProtect + owes (s'.eprocess p).Parent q)
    (hcount : s'.systemPtes.bitmap.BitCount = systemPteCount)
    (hholds : ∀ a, s.systemPtes.Holds a → s'.systemPtes.Holds a)
    (hdirectory : s'.systemPtes.Holds ((s'.eprocess p).DirectoryTableBase, 1))
    (hapart : ∀ a, 0 < a.2 → s.systemPtes.Holds a →
      Apart ((s'.eprocess p).DirectoryTableBase, 1) a) :
    PsInvariant idle sys noDebt s' := by
  have hpa : p ∉ s.alive := fun hmem => hp (Ps.mem_processes_of_alive hmem)
  have hne : ∀ q ∈ s.alive, q ≠ p := by
    rintro q hq rfl
    exact hpa hq
  have halive : s'.alive = insert p s.alive := by
    ext q
    rw [Ps.mem_alive, Finset.mem_insert, Ps.mem_alive, hprocs, Finset.mem_insert]
    by_cases hq : q = p
    · subst hq
      simp [hheader, createdHeader]
    · obtain ⟨r, heq⟩ := hother q hq
      rw [heq]
      simp [hq]
  have hopen : ∀ q, s'.openThreads q = s.openThreads q := by
    intro q
    rw [Ps.openThreads, Ps.openThreads, hth, heth]
  have hopenp : s.openThreads p = ∅ := by
    rw [Finset.eq_empty_iff_forall_notMem]
    intro t ht
    obtain ⟨htm, hf, hproc⟩ := Ps.mem_openThreads.mp ht
    exact hpa (hproc ▸ h.threadProcess t htm hf)
  have hchildren : ∀ q, s'.children q
      = if q = (s'.eprocess p).Parent then insert p (s.children q) else s.children q := by
    intro q
    ext c
    rw [Ps.mem_children, halive, Finset.mem_insert]
    by_cases hc : c = p
    · subst hc
      have hnot : c ∉ s.children q := fun hmem => hpa (Ps.mem_children.mp hmem).1
      split
      · rename_i hq
        simp [hq]
      · rename_i hq
        simp [hnot, Ne.symm hq]
    · obtain ⟨r, heq⟩ := hother c hc
      rw [heq]
      split
      · simp [Ps.mem_children, hc]
      · simp [Ps.mem_children, hc]
  have hcard : ∀ q, (s'.children q).card
      = (s.children q).card + owes (s'.eprocess p).Parent q := by
    intro q
    rw [hchildren]
    by_cases hq : q = (s'.eprocess p).Parent
    · have hnot : p ∉ s.children q := fun hmem => hpa (Ps.mem_children.mp hmem).1
      rw [if_pos hq, Finset.card_insert_of_notMem hnot, owes, if_pos hq]
    · rw [if_neg hq, owes, if_neg hq]
      rfl
  have hchildrenp : s.children p = ∅ := by
    rw [Finset.eq_empty_iff_forall_notMem]
    intro c hc
    obtain ⟨hca, hcp⟩ := Ps.mem_children.mp hc
    exact hpa (hcp ▸ h.parent c hca (by rw [hcp]; exact hnull))
  have hparentne : p ≠ (s'.eprocess p).Parent := by
    intro hcycle
    have hmem := hparent (by rw [← hcycle]; exact hnull)
    rw [← hcycle] at hmem
    exact hpa hmem
  have howns : ∀ o, s'.Owns sys o → o = .inr p ∨ s.Owns sys o ∧ s'.area o = s.area o := by
    intro o ho
    cases o with
    | inl t =>
      obtain ⟨ht, hf⟩ := ho
      rw [hth] at ht
      rw [heth] at hf
      exact Or.inr ⟨⟨ht, hf⟩, by simp only [Ps.area, heth]⟩
    | inr q =>
      by_cases hq : q = p
      · exact Or.inl (congrArg Sum.inr hq)
      · obtain ⟨hqa, hqs⟩ := ho
        obtain ⟨r, heq⟩ := hother q hq
        rw [halive] at hqa
        exact Or.inr ⟨⟨(Finset.mem_insert.mp hqa).resolve_left hq, hqs⟩,
          by simp only [Ps.area, heq]⟩
  constructor
  · rw [hth, heth]
    exact h.flags
  · intro t ht hf
    rw [hth] at ht
    rw [heth] at hf ⊢
    rw [halive]
    exact Finset.mem_insert_of_mem (h.threadProcess t ht hf)
  · intro q hq hqn
    rw [halive] at hq ⊢
    by_cases hqp : q = p
    · subst hqp
      exact Finset.mem_insert_of_mem (hparent hqn)
    · obtain ⟨r, heq⟩ := hother q hqp
      rw [heq] at hqn ⊢
      exact Finset.mem_insert_of_mem
        (h.parent q ((Finset.mem_insert.mp hq).resolve_left hqp) hqn)
  · rw [hprocs]
    intro hmem
    rcases Finset.mem_insert.mp hmem with hmem | hmem
    · exact hnull hmem.symm
    · exact h.notNull hmem
  · intro q hq
    rw [hopen, hcard]
    rw [halive] at hq
    rcases Finset.mem_insert.mp hq with rfl | hq
    · rw [hcounters.1, hopenp, hchildrenp, owes, if_neg hparentne]
      rfl
    · rw [hprotect q hq, h.protect q hq]
      push_cast
      rw [noDebt]
      omega
  · intro q hq
    rw [hopen]
    rw [halive] at hq
    rcases Finset.mem_insert.mp hq with rfl | hq
    · rw [hcounters.2, hopenp]
      rfl
    · obtain ⟨r, heq⟩ := hother q (hne q hq)
      rw [heq]
      exact h.active q hq
  · intro q hq hqs
    rw [halive] at hq
    rcases Finset.mem_insert.mp hq with rfl | hq
    · exact ⟨hheader, hflags, hpid⟩
    · obtain ⟨r, heq⟩ := hother q (hne q hq)
      obtain ⟨hh, hfl, hentry⟩ := h.ordinary q hq hqs
      rw [heq]
      exact ⟨hh, hfl, hpidother _ q hentry⟩
  · rw [halive]
    exact Finset.mem_insert_of_mem h.system
  · rw [hopen]
    exact h.idleThread
  · exact hcount
  · intro o ho
    rcases howns o ho with rfl | ⟨ho, harea⟩
    · exact hdirectory
    · rw [harea]
      exact hholds _ (h.pages o ho)
  · intro o o' ho ho' hoo
    rcases howns o ho with rfl | ⟨ho, harea⟩
    · rcases howns o' ho' with rfl | ⟨ho', harea'⟩
      · exact absurd rfl hoo
      · rw [harea']
        exact hapart _ (s.area_pos o') (h.pages o' ho')
    · rcases howns o' ho' with rfl | ⟨ho', harea'⟩
      · rw [harea]
        exact (hapart _ (s.area_pos o) (h.pages o ho)).symm
      · rw [harea, harea']
        exact h.apart o o' ho ho' hoo

end Threads

/-! ## What a decrement leaves alone -/

/-- **A descent**: the processes that go with a decrement, and nothing else. -/
structure Ps.Descends (sys : UInt32) (s s' : Ps τ) : Prop where
  threads : s'.threads = s.threads
  ethread : s'.ethread = s.ethread
  userBitmap : s'.userBitmap = s.userBitmap
  userBitmaps : s'.userBitmaps = s.userBitmaps
  lock : s'.DispatcherDataBaseLock = s.DispatcherDataBaseLock
  processes : s'.processes ⊆ s.processes
  kept : ∀ q ∈ s.processes, q ∉ s.alive → q ∈ s'.processes
  gone : ∀ q ∈ s'.processes, q ∈ s.alive → q ∈ s'.alive
  dead : ∀ q, q ∉ s.alive → s'.eprocess q = s.eprocess q
  alive : s'.alive ⊆ s.alive
  members : ∀ q, ∃ r h, s'.eprocess q = { s.eprocess q with RundownProtect := r, header := h }
  mapped : ∀ q ∈ s'.alive, s'.userMapped q = s.userMapped q
  pid : ∀ i q, q ∉ s.alive → s.PidTable i = .object q → s'.PidTable i = .object q
  holds : ∀ a, s.systemPtes.Holds a → (∀ o, s.Owns sys o → Apart (s.area o) a) →
    s'.systemPtes.Holds a

/-- Nothing goes. -/
theorem Ps.Descends.refl (s : Ps τ) : s.Descends sys s where
  threads := rfl
  ethread := rfl
  userBitmap := rfl
  userBitmaps := rfl
  lock := rfl
  processes := fun _ h => h
  kept := fun _ h _ => h
  gone := fun _ _ h => h
  dead := fun _ _ => rfl
  alive := fun _ h => h
  members := fun _ => ⟨_, _, rfl⟩
  mapped := fun _ _ => rfl
  pid := fun _ _ _ h => h
  holds := fun _ h _ => h

/-- Owners after a descent were owners before, of the same areas. -/
theorem Ps.Descends.owns (h : s.Descends sys s') {o : τ ⊕ UInt32} (ho : s'.Owns sys o) :
    s.Owns sys o ∧ s'.area o = s.area o := by
  cases o with
  | inl t =>
    obtain ⟨ht, hf⟩ := ho
    rw [h.threads] at ht
    rw [h.ethread] at hf
    exact ⟨⟨ht, hf⟩, by simp only [Ps.area, h.ethread]⟩
  | inr q =>
    obtain ⟨hq, hne⟩ := ho
    obtain ⟨r, e, hmembers⟩ := h.members q
    exact ⟨⟨h.alive hq, hne⟩, by simp only [Ps.area, hmembers]⟩

/-- The same threads are open after a descent. -/
theorem Ps.Descends.openThreads (h : s.Descends sys s') (q : UInt32) :
    s'.openThreads q = s.openThreads q := by
  rw [Ps.openThreads, Ps.openThreads, h.threads, h.ethread]

/-- Whether an entry of the log is the destruction of the process `p`. -/
def PsAction.destroys (p : UInt32) : PsAction τ → Bool
  | .destroy q _ => q = p
  | _ => false

/-- Whether an entry of the log is a decrement of the process `p` to 0. -/
def PsAction.zeroes (p : UInt32) : PsAction τ → Bool
  | .decrement q r => q = p ∧ r = 0
  | _ => false

/-- Whether an entry of the log is about a thread. -/
def PsAction.ofThread : PsAction τ → Bool
  | .close _ | .freeUserStack _ | .freeKernelStack _ => true
  | _ => false

/-- **Processes go in good order**: they are used only while they are allocated, each decrement to
0 destroys, without active threads, and nothing else does. -/
structure Tidy (log : List (PsAction τ)) : Prop where
  used : ∀ q b, .use q b ∈ log → b = true
  destroyed : ∀ q, log.countP (PsAction.destroys q) = log.countP (PsAction.zeroes q)
  active : ∀ q n, .destroy q n ∈ log → n = 0

end KaushOS
