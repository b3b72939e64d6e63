import KaushOS.Ke.Dispatcher
import KaushOS.Library.Transition
import Mathlib.Algebra.BigOperators.Group.Finset.Basic

/-! # Runs of the scheduler

The steps of `scheduler.c` taken together with the steps around it that move threads: creation
(`PspCreateThread`), self-termination (`PsExitThread`), the release of waiting threads, the
clean-up of terminated ones. Each step runs with the dispatcher database locked.

* **`SchedEvent`, `schedStep`** — the steps, run on the memory of the kernel.
* **`Dispatcher.step`**, **`schedStep_spec`** — the abstract step, and the simulation: as long as
  somebody is queued when the current thread gives up the processor, every enabled step returns
  and does what its abstract counterpart does.
* **`SchedInvariant`** — the invariant of the ready queues, in every state that a run reaches.
* **`ready_queue_invariant`** — with an idle thread that never gives up the processor for good,
  no step fails, and the queues hold exactly the ready threads. -/

namespace KaushOS

open CircularList Transition

variable {τ : Type} [DecidableEq τ]

/-! ## Steps -/

/-- `PspCreateThread` as far as the scheduler sees it: the new thread is initialised with the base
priority of its process and made ready. -/
def pspCreateThread (t : τ) (basePriority : Nat) (process : UInt32) (s : Sched τ) :
    Kernel (Sched τ) :=
  kiReadyThread t <| s.modify t fun tcb =>
    { tcb with
      Priority := basePriority
      ThreadProcess := process
      State := .INITIALIZED
      Quantum := (s.process process).Quantum }

/-- `PsExitThread` of the current thread: it marks itself as terminated, the threads that wait for
its termination become ready, and it schedules. The threads to release are found on the wait list
of the thread object; here they are a parameter. -/
def psExitThread (released : List τ) (s : Sched τ) : Kernel (Sched τ) := do
  let current := s.CurrentThread
  assert ((s.tcb current).State = .RUNNING) "Thread->tcb.State == THREAD_STATE_RUNNING"
  let s := s.modify current fun tcb => { tcb with State := .TERMINATED }
  let s ← released.foldlM (fun s t => kiReadyThread t s) s
  schedule s

/-- **The steps of the scheduler.** -/
inductive SchedEvent (τ : Type)
  /-- A thread is created and made ready. -/
  | create (t : τ) (basePriority : Nat) (process : UInt32)
  /-- A wait release makes a waiting thread ready. -/
  | ready (t : τ)
  /-- The current thread calls `Schedule`. -/
  | schedule
  /-- The current thread terminates, releases the threads that wait for it, and schedules. -/
  | exit (released : List τ)
  /-- The current thread blocks. -/
  | block
  /-- `PsSetTheadPriority`. -/
  | setPriority (t : τ) (p : Nat)
  /-- One terminated thread is cleaned up. -/
  | reap
  /-- The memory of a cleaned-up thread is given back. -/
  | free (t : τ)
  deriving DecidableEq, Repr

/-- The code that a step runs. -/
def schedStep : SchedEvent τ → Sched τ → Kernel (Sched τ)
  | .create t basePriority process, s => pspCreateThread t basePriority process s
  | .ready t, s => kiReadyThread t s
  | .schedule, s => schedule s
  | .exit released, s => psExitThread released s
  | .block, s => kiBlockThread s
  | .setPriority t p, s => .ok (psSetTheadPriority t p s)
  | .reap, s => do
    let (_, s) ← kiReapThread s
    return s
  | .free _, s => .ok s

/-- **The scheduler together with the threads that exist.** -/
structure SchedMachine (τ : Type) where
  sched : Sched τ
  live : Finset τ

/-- The threads queued at priority `p`, as `LIST_FOREACH` visits them. -/
def schedQueue (p : Nat) (s : Sched τ) : List τ :=
  listElements (schedLinks τ) s.tcb (s.Scheduler_list p)

/-- The threads on `ExitThreadList`, as `LIST_FOREACH` visits them. -/
def schedExited (s : Sched τ) : List τ :=
  listElements (schedLinks τ) s.tcb s.ExitThreadList

/-- **What the callers promise.** Only new threads are created, only waiting threads are released,
priorities are those of the enumeration, and only cleaned-up threads are given back. -/
def SchedEvent.Enabled (m : SchedMachine τ) : SchedEvent τ → Prop
  | .create t p _ => t ∉ m.live ∧ PROCESS_PRIORITY_IDLE ≤ p ∧ p ≤ PROCESS_PRIORITY_MAX
  | .ready t => t ∈ m.live ∧ (m.sched.tcb t).State = .WAITING
  | .exit released =>
    released.Nodup ∧ ∀ t ∈ released, t ∈ m.live ∧ (m.sched.tcb t).State = .WAITING
  | .setPriority t p => t ∈ m.live ∧ PROCESS_PRIORITY_IDLE ≤ p ∧ p ≤ PROCESS_PRIORITY_MAX
  | .free t => t ∈ m.live ∧ (m.sched.tcb t).State = .TERMINATED ∧ t ∉ schedExited m.sched
  | .schedule | .block | .reap => True

/-- The threads that exist after a step. -/
def SchedEvent.liveAfter (live : Finset τ) : SchedEvent τ → Finset τ
  | .create t _ _ => insert t live
  | .free t => live.erase t
  | _ => live

/-- The steps by which the current thread leaves the processor without being ready to go on. -/
def SchedEvent.GivesUp : SchedEvent τ → Prop
  | .exit _ | .block => True
  | _ => False

/-- The queue of priority `p` at the start: at most one thread is ready then. -/
def startQueue (start : Option τ) (s : Sched τ) (p : Nat) : List τ :=
  match start with
  | some i => if p = (s.tcb i).Priority then [i] else []
  | none => []

/-- **The scheduler as a transition system.** At the start one thread runs and at most one other,
`start`, is ready. A label records the step and the state it was taken in. -/
def schedSystem (start : Option τ) : System (SchedEvent τ × SchedMachine τ) (SchedMachine τ) where
  init m :=
    m.sched.CurrentThread ∈ m.live
    ∧ (∀ t ∈ m.live, (m.sched.tcb t).State = .RUNNING ↔ t = m.sched.CurrentThread)
    ∧ (∀ t ∈ m.live, (m.sched.tcb t).State = .READY ↔ some t = start)
    ∧ (∀ t, some t = start → t ∈ m.live)
    ∧ (∀ t ∈ m.live, PROCESS_PRIORITY_IDLE ≤ (m.sched.tcb t).Priority
        ∧ (m.sched.tcb t).Priority ≤ PROCESS_PRIORITY_MAX)
    ∧ (∀ p, IsList (schedLinks τ) Set.univ m.sched.tcb (m.sched.Scheduler_list p)
        (startQueue start m.sched p))
    ∧ m.sched.ExitThreadList = listInit
  step _ m l m' :=
    l.2 = m ∧ l.1.Enabled m ∧ schedStep l.1 m.sched = .ok m'.sched
      ∧ m'.live = l.1.liveAfter m.live

/-! ## The abstract step -/

namespace Dispatcher

/-- **What a step does to the abstract scheduler.** -/
def step (a : Dispatcher τ) : SchedEvent τ → Dispatcher τ
  | .create t p _ => ((a.setState t .INITIALIZED).setPriority t p).makeReady t
  | .ready t => a.makeReady t
  | .schedule => a.yield
  | .exit released => (released.foldl makeReady (a.setState a.current .TERMINATED)).retire
  | .block => a.block
  | .setPriority t p => a.setPriority t p
  | .reap => a.reap
  | .free _ => a

variable {a a' : Dispatcher τ} {live : Finset τ} {t next : τ}

/-- The members of the queues after a thread is queued. -/
theorem mem_makeReady {p : Nat} {i : τ} :
    i ∈ (a.makeReady t).ready p ↔ i ∈ a.ready p ∨ i = t ∧ p = a.priority t := by
  by_cases hp : p = a.priority t
  · simp [Dispatcher.makeReady, setReady, hp]
  · simp [Dispatcher.makeReady, setReady, hp]

/-- The states after a thread is queued. -/
theorem makeReady_state (i : τ) :
    (a.makeReady t).state i = if i = t then .READY else a.state i := by
  by_cases hi : i = t
  · simp [Dispatcher.makeReady, hi]
  · simp [Dispatcher.makeReady, hi, a.setState_of_ne _ hi]

/-- Queueing keeps the thread that has the processor. -/
@[simp] theorem makeReady_current : (a.makeReady t).current = a.current := rfl

/-- Queueing keeps the priorities. -/
@[simp] theorem makeReady_priority : (a.makeReady t).priority = a.priority := rfl

omit [DecidableEq τ] in
/-- Nobody is queued when a selection from the lowest priority on fails. -/
theorem Queued.ready_eq_nil {held : Option τ} (h : a.Queued live held)
    (hsel : (a.select PROCESS_PRIORITY_IDLE).1 = none) (p : Nat) : a.ready p = [] := by
  rcases hpick : a.select PROCESS_PRIORITY_IDLE with ⟨next, a'⟩
  rw [hpick] at hsel
  obtain rfl : next = none := hsel
  obtain ⟨-, hempty⟩ := select_eq_none Nat.zero_lt_one hpick
  rw [List.eq_nil_iff_forall_not_mem]
  intro t ht
  obtain ⟨-, -, -, hlo, hhi⟩ := h.ready_state p t ht
  rw [hempty p hlo hhi] at ht
  exact List.not_mem_nil ht

/-- Changing the priority of a thread that is queued nowhere special: the queues stay as they
are. -/
theorem Queued.setPriority {held : Option τ} (h : a.Queued live held) {p : Nat}
    (hlo : PROCESS_PRIORITY_IDLE ≤ p) (hhi : p ≤ PROCESS_PRIORITY_MAX) :
    (a.setPriority t p).Queued live held := by
  refine ⟨h.ready_state, h.ready_mem, h.exited_state, h.held_state, ?_⟩
  intro i hi
  by_cases hit : i = t
  · simp [Dispatcher.setPriority, hit, hlo, hhi]
  · simpa [Dispatcher.setPriority, hit] using h.priority i hi

/-- A new thread, initialised with a priority of the enumeration. -/
theorem Queued.create {held : Option τ} (h : a.Queued live held) (ht : t ∉ live) {p : Nat}
    (hlo : PROCESS_PRIORITY_IDLE ≤ p) (hhi : p ≤ PROCESS_PRIORITY_MAX) :
    ((a.setState t .INITIALIZED).setPriority t p).Queued (insert t live) held := by
  have hne : ∀ i ∈ live, i ≠ t := fun i hi e => ht (e ▸ hi)
  have hstate : ∀ i ∈ live, (a.setState t .INITIALIZED).state i = a.state i := fun i hi =>
    a.setState_of_ne _ (hne i hi)
  constructor
  · intro q i hi
    obtain ⟨hl, hs, hrest⟩ := h.ready_state q i hi
    exact ⟨Finset.mem_insert_of_mem hl, (hstate i hl).trans hs, hrest⟩
  · intro i hi hs hheld
    rcases Finset.mem_insert.mp hi with rfl | hi
    · rw [show ((a.setState i .INITIALIZED).setPriority i p).state i = .INITIALIZED from
        a.setState_self i _] at hs
      cases hs
    · exact h.ready_mem i hi ((hstate i hi).symm.trans hs) hheld
  · intro i hi
    obtain ⟨hl, hs⟩ := h.exited_state i hi
    exact ⟨Finset.mem_insert_of_mem hl, (hstate i hl).trans hs⟩
  · intro i hi
    obtain ⟨hl, hs⟩ := h.held_state i hi
    exact ⟨Finset.mem_insert_of_mem hl, (hstate i hl).trans hs⟩
  · intro i hi
    rcases Finset.mem_insert.mp hi with rfl | hi
    · simp [Dispatcher.setPriority, hlo, hhi]
    · simpa [Dispatcher.setPriority, hne i hi] using h.priority i hi

/-- A terminated thread that is on no list may cease to exist. -/
theorem Queued.erase {held : Option τ} (h : a.Queued live held) (hterm : a.state t = .TERMINATED)
    (hexit : t ∉ a.exited) : a.Queued (live.erase t) held := by
  have hne : ∀ {i}, a.state i = .READY → i ≠ t := by
    rintro i hi rfl
    rw [hi] at hterm
    cases hterm
  constructor
  · intro p i hi
    obtain ⟨hl, hs, hrest⟩ := h.ready_state p i hi
    exact ⟨Finset.mem_erase.mpr ⟨hne hs, hl⟩, hs, hrest⟩
  · exact fun i hi => h.ready_mem i (Finset.mem_of_mem_erase hi)
  · intro i hi
    obtain ⟨hl, hs⟩ := h.exited_state i hi
    exact ⟨Finset.mem_erase.mpr ⟨fun e => hexit (e ▸ hi), hl⟩, hs⟩
  · intro i hi
    obtain ⟨hl, hs⟩ := h.held_state i hi
    exact ⟨Finset.mem_erase.mpr ⟨hne hs, hl⟩, hs⟩
  · exact fun i hi => h.priority i (Finset.mem_of_mem_erase hi)

omit [DecidableEq τ] in
/-- Cleaning up a terminated thread. -/
theorem Queued.reap {held : Option τ} (h : a.Queued live held) : a.reap.Queued live held :=
  ⟨h.ready_state, h.ready_mem, fun i hi => h.exited_state i (List.mem_of_mem_tail hi),
    h.held_state, h.priority⟩

/-- Queueing a waiting thread does not change who runs. -/
theorem OneRunning.makeReady (h : a.OneRunning live) (ht : a.state t ≠ .RUNNING)
    (htc : t ≠ a.current) : (a.makeReady t).OneRunning live := by
  refine ⟨h.1, fun i hi => ?_⟩
  rw [makeReady_state]
  by_cases hit : i = t
  · subst hit
    rw [if_pos rfl]
    exact ⟨fun e => (by cases e), fun e => absurd e htc⟩
  · rw [if_neg hit]
    exact h.2 i hi

/-- Once the current thread has left its state `RUNNING`, nobody runs. -/
theorem OneRunning.leave (h : a.OneRunning live) {x : THREAD_STATE} (hx : x ≠ .RUNNING) :
    ∀ i ∈ live, (a.setState a.current x).state i ≠ .RUNNING := by
  intro i hi
  by_cases hic : i = a.current
  · rw [hic, a.setState_self]
    exact hx
  · rw [a.setState_of_ne x hic]
    exact fun hr => hic ((h.2 i hi).mp hr)

/-! ### Giving up the processor, abstractly -/

/-- Yielding keeps the queues and leaves one thread running. -/
theorem Queued.yield (h : a.Queued live none) (hr : a.OneRunning live)
    (hnodup : ∀ q, (a.ready q).Nodup) (hdisj : ∀ q r, q ≠ r → ∀ t ∈ a.ready q, t ∉ a.ready r) :
    a.yield.Queued live none ∧ a.yield.OneRunning live := by
  have hcur : a.state a.current = .RUNNING := (hr.2 _ hr.1).mpr rfl
  rcases hpick : a.select (a.priority a.current) with ⟨next, a₁⟩
  cases next with
  | none =>
    have hyield : a.yield = a := by simp [Dispatcher.yield, hpick]
    rw [hyield]
    exact ⟨h, hr⟩
  | some next =>
    have hyield : a.yield = (a₁.makeReady a.current).dispatch next := by
      simp [Dispatcher.yield, hpick]
    have hheld := h.select hnodup hdisj hpick
    obtain ⟨q, rest, -, -, -, -, rfl⟩ := select_eq_some hpick
    have hqueued := hheld.makeReady (t := a.current) hr.1 (by simp [hcur]) (by simp [hcur])
    rw [hyield]
    refine ⟨hqueued.dispatch, oneRunning_dispatch (hheld.held_state next rfl).1 ?_⟩
    intro i hi
    rw [makeReady_state]
    by_cases hic : i = a.current
    · rw [if_pos hic]
      decide
    · rw [if_neg hic]
      exact fun hrun => hic ((hr.2 i hi).mp hrun)

/-- Blocking keeps the queues and leaves one thread running, when somebody is queued. -/
theorem Queued.block (h : a.Queued live none) (hr : a.OneRunning live)
    (hnodup : ∀ q, (a.ready q).Nodup) (hdisj : ∀ q r, q ≠ r → ∀ t ∈ a.ready q, t ∉ a.ready r)
    {p : Nat} (ht : t ∈ a.ready p) : a.block.Queued live none ∧ a.block.OneRunning live := by
  have hcur : a.state a.current = .RUNNING := (hr.2 _ hr.1).mpr rfl
  have hq : (a.setState a.current .WAITING).Queued live none :=
    h.setState (by simp [hcur]) (by simp [hcur]) (by decide)
  obtain ⟨-, -, -, hlo, hhi⟩ := h.ready_state p t ht
  obtain ⟨next, a₁, hpick⟩ := select_isSome (a := a.setState a.current .WAITING)
    Nat.zero_lt_one hlo hhi ht
  have hblock : a.block = a₁.dispatch next := by
    unfold Dispatcher.block
    rw [show (a.setState a.current .WAITING).select PROCESS_PRIORITY_IDLE = (some next, a₁)
      from hpick]
  have hheld := hq.select hnodup hdisj hpick
  obtain ⟨q, rest, -, -, -, -, rfl⟩ := select_eq_some hpick
  rw [hblock]
  exact ⟨hheld.dispatch, oneRunning_dispatch (hheld.held_state next rfl).1 (hr.leave (by decide))⟩

/-- Retiring keeps the queues and leaves one thread running, when somebody is queued. -/
theorem Queued.retire (h : a.Queued live none) (hlive : a.current ∈ live)
    (hcur : a.state a.current = .TERMINATED) (hnone : ∀ i ∈ live, a.state i ≠ .RUNNING)
    (hnodup : ∀ q, (a.ready q).Nodup) (hdisj : ∀ q r, q ≠ r → ∀ t ∈ a.ready q, t ∉ a.ready r)
    {p : Nat} (ht : t ∈ a.ready p) : a.retire.Queued live none ∧ a.retire.OneRunning live := by
  obtain ⟨-, -, -, hlo, hhi⟩ := h.ready_state p t ht
  obtain ⟨next, a₁, hpick⟩ := select_isSome (a := a) Nat.zero_lt_one hlo hhi ht
  have hretire : a.retire = { a₁ with exited := a₁.exited ++ [a.current] }.dispatch next := by
    unfold Dispatcher.retire
    rw [show a.select PROCESS_PRIORITY_IDLE = (some next, a₁) from hpick]
  have hheld := h.select hnodup hdisj hpick
  obtain ⟨q, rest, -, -, -, -, rfl⟩ := select_eq_some hpick
  rw [hretire]
  exact ⟨(hheld.exit hlive hcur).dispatch,
    oneRunning_dispatch (hheld.held_state next rfl).1 hnone⟩

end Dispatcher

/-! ## The simulation -/

/-- **The invariant of the ready queues**: the memory represents an abstract scheduler whose
queues hold exactly the ready threads and in which one thread runs. -/
structure SchedInvariant (m : SchedMachine τ) (a : Dispatcher τ) : Prop where
  rep : m.sched.Represents a
  queued : a.Queued m.live none
  running : a.OneRunning m.live

variable {m : SchedMachine τ} {a : Dispatcher τ}

/-- The running thread is in state `RUNNING`. -/
theorem SchedInvariant.current_state (h : SchedInvariant m a) : a.state a.current = .RUNNING :=
  (h.running.2 _ h.running.1).mpr rfl

/-- The current thread is on no list. -/
theorem SchedInvariant.current_not_mem (h : SchedInvariant m a) (k : Option Nat) :
    a.current ∉ a.lists k :=
  h.queued.not_mem (by simp [h.current_state]) (by simp [h.current_state]) k

/-- **Making waiting threads ready, one after the other.** -/
theorem foldlM_kiReadyThread_spec {live : Finset τ} (l : List τ) {s : Sched τ} {a : Dispatcher τ}
    (hrep : s.Represents a) (hq : a.Queued live none) (hnodup : l.Nodup)
    (hl : ∀ t ∈ l, t ∈ live ∧ a.state t = .WAITING) :
    ∃ s', l.foldlM (fun s t => kiReadyThread t s) s = .ok s'
      ∧ s'.Represents (l.foldl Dispatcher.makeReady a)
      ∧ (l.foldl Dispatcher.makeReady a).Queued live none
      ∧ (l.foldl Dispatcher.makeReady a).current = a.current
      ∧ (∀ i, i ∉ l → (l.foldl Dispatcher.makeReady a).state i = a.state i)
      ∧ (∀ i ∈ l, (l.foldl Dispatcher.makeReady a).state i = .READY)
      ∧ ∀ p, ∀ i ∈ a.ready p, i ∈ (l.foldl Dispatcher.makeReady a).ready p := by
  induction l generalizing s a with
  | nil => exact ⟨s, rfl, hrep, hq, rfl, fun _ _ => rfl, fun _ h => absurd h List.not_mem_nil,
      fun _ _ h => h⟩
  | cons t l ih =>
    obtain ⟨htl, htw⟩ := hl t List.mem_cons_self
    obtain ⟨hnt, hnd⟩ := List.nodup_cons.mp hnodup
    have hfree := hq.not_mem (t := t) (by simp [htw]) (by simp [htw])
    obtain ⟨s₁, hrun, hrep₁⟩ := kiReadyThread_spec hrep hfree (Or.inr (Or.inl htw))
    have hq₁ := hq.makeReady htl (by simp [htw]) (by simp [htw])
    have hrest : ∀ i ∈ l, i ∈ live ∧ (a.makeReady t).state i = .WAITING := by
      intro i hi
      have hit : i ≠ t := fun e => hnt (e ▸ hi)
      rw [Dispatcher.makeReady_state, if_neg hit]
      exact hl i (List.mem_cons_of_mem t hi)
    obtain ⟨s₂, hfold, hrep₂, hq₂, hcur, hother, hready, hkeep⟩ := ih hrep₁ hq₁ hnd hrest
    refine ⟨s₂, ?_, hrep₂, hq₂, hcur, ?_, ?_, ?_⟩
    · rw [List.foldlM_cons, hrun, kernel_ok_bind, hfold]
    · intro i hi
      have hit : i ≠ t := fun e => hi (by simp [e])
      have hil : i ∉ l := fun hil => hi (List.mem_cons_of_mem t hil)
      rw [List.foldl_cons, hother i hil, Dispatcher.makeReady_state, if_neg hit]
    · intro i hi
      by_cases hil : i ∈ l
      · exact hready i hil
      · have hit : i = t := by simpa [hil] using hi
        rw [List.foldl_cons, hother i hil, Dispatcher.makeReady_state, if_pos hit]
    · intro p i hi
      exact hkeep p i (Dispatcher.mem_makeReady.mpr (Or.inl hi))

/-- **The simulation.** An enabled step returns, does what its abstract counterpart does and keeps
the invariant, unless the current thread gives up the processor while nobody is queued; then it
bugchecks. -/
theorem schedStep_spec (h : SchedInvariant m a) {e : SchedEvent τ} (he : e.Enabled m) :
    (e.GivesUp ∧ (∀ p, a.ready p = []) ∧ ∃ err, schedStep e m.sched = .error err)
    ∨ ∃ s', schedStep e m.sched = .ok s'
      ∧ SchedInvariant ⟨s', e.liveAfter m.live⟩ (a.step e) := by
  have hnodup := h.rep.ready_nodup
  have hdisj := h.rep.ready_disjoint
  cases e with
  | create t p process =>
    obtain ⟨ht, hlo, hhi⟩ := he
    refine Or.inr ?_
    let s₁ := m.sched.modify t fun tcb =>
      { tcb with
        Priority := p, ThreadProcess := process, State := .INITIALIZED
        Quantum := (m.sched.process process).Quantum }
    have hrep₁ : s₁.Represents ((a.setState t .INITIALIZED).setPriority t p) := by
      refine ⟨fun i => ?_, fun i => ?_, h.rep.current, h.rep.lists_modify t fun _ => rfl⟩
      · by_cases hit : i = t
        · subst hit
          simp [s₁, Dispatcher.setPriority]
        · rw [Sched.modify_of_ne _ _ _ hit]
          exact (h.rep.state i).trans (a.setState_of_ne _ hit).symm
      · by_cases hit : i = t
        · subst hit
          simp [s₁, Dispatcher.setPriority]
        · rw [Sched.modify_of_ne _ _ _ hit]
          simpa [Dispatcher.setPriority, hit] using h.rep.priority i
    have hq₁ := h.queued.create ht hlo hhi
    have hstate : ((a.setState t .INITIALIZED).setPriority t p).state t = .INITIALIZED :=
      a.setState_self t _
    obtain ⟨s', hrun, hrep'⟩ := kiReadyThread_spec hrep₁
      (fun k => h.queued.not_mem_of_not_live ht k) (Or.inl hstate)
    refine ⟨s', hrun, hrep', ?_, ?_⟩
    · exact hq₁.makeReady (Finset.mem_insert_self t _) (by simp [hstate]) (by simp [hstate])
    · have htc : t ≠ a.current := fun e => ht (e ▸ h.running.1)
      have hone : ((a.setState t .INITIALIZED).setPriority t p).OneRunning (insert t m.live) := by
        refine ⟨Finset.mem_insert_of_mem h.running.1, fun i hi => ?_⟩
        by_cases hit : i = t
        · subst hit
          rw [hstate]
          exact ⟨fun e => (by cases e), fun e => absurd e htc⟩
        · have hil : i ∈ m.live := (Finset.mem_insert.mp hi).resolve_left hit
          rw [show ((a.setState t .INITIALIZED).setPriority t p).state i = a.state i from
            a.setState_of_ne _ hit]
          exact h.running.2 i hil
      exact hone.makeReady (by simp [hstate]) htc
  | ready t =>
    obtain ⟨ht, hw⟩ := he
    rw [h.rep.state] at hw
    refine Or.inr ?_
    have htc : t ≠ a.current := by
      rintro rfl
      rw [h.current_state] at hw
      cases hw
    have hfree := h.queued.not_mem (t := t) (by simp [hw]) (by simp [hw])
    obtain ⟨s', hrun, hrep'⟩ := kiReadyThread_spec h.rep hfree (Or.inr (Or.inl hw))
    exact ⟨s', hrun, hrep', h.queued.makeReady ht (by simp [hw]) (by simp [hw]),
      h.running.makeReady (by simp [hw]) htc⟩
  | schedule =>
    obtain ⟨s', hrun, hrep'⟩ := schedule_spec h.rep h.queued h.running
    obtain ⟨hq, hr⟩ := h.queued.yield h.running hnodup hdisj
    exact Or.inr ⟨s', hrun, hrep', hq, hr⟩
  | exit released =>
    obtain ⟨hnd, hrel⟩ := he
    have hcheck : (m.sched.tcb m.sched.CurrentThread).State = .RUNNING := by
      rw [h.rep.current, h.rep.state, h.current_state]
    have hrep₁ := h.rep.setState a.current .TERMINATED
    have hq₁ : (a.setState a.current .TERMINATED).Queued m.live none :=
      h.queued.setState (by simp [h.current_state]) (by simp [h.current_state]) (by decide)
    have hnc : ∀ t ∈ released, t ≠ a.current := by
      rintro t ht rfl
      have hw := (hrel _ ht).2
      rw [h.rep.state, h.current_state] at hw
      cases hw
    have hrel₁ : ∀ t ∈ released,
        t ∈ m.live ∧ (a.setState a.current .TERMINATED).state t = .WAITING := by
      intro t ht
      rw [a.setState_of_ne _ (hnc t ht), ← h.rep.state]
      exact hrel t ht
    obtain ⟨s₂, hfold, hrep₂, hq₂, hcur₂, hother, hready, hkeep⟩ :=
      foldlM_kiReadyThread_spec released hrep₁ hq₁ hnd hrel₁
    have hcnot : a.current ∉ released := fun hc => hnc _ hc rfl
    have hterm : (released.foldl Dispatcher.makeReady (a.setState a.current .TERMINATED)).state
        a.current = .TERMINATED := by
      rw [hother _ hcnot, a.setState_self]
    have hfree : ∀ k, a.current ∉
        (released.foldl Dispatcher.makeReady (a.setState a.current .TERMINATED)).lists k := by
      intro k hk
      cases k with
      | some p =>
        have hst := (hq₂.ready_state p _ hk).2.1
        rw [hterm] at hst
        cases hst
      | none =>
        have hexited : ∀ (l : List τ) (b : Dispatcher τ),
            (l.foldl Dispatcher.makeReady b).exited = b.exited := by
          intro l
          induction l with
          | nil => exact fun _ => rfl
          | cons t l ih => exact fun b => ih (b.makeReady t)
        have hk' : a.current ∈ (a.setState a.current .TERMINATED).exited := by
          rw [← hexited released]
          exact hk
        exact h.current_not_mem none hk'
    have hrun : schedStep (.exit released) m.sched = schedule s₂ := by
      show psExitThread released m.sched = _
      simp only [psExitThread, assert_of_true hcheck, kernel_ok_bind]
      rw [h.rep.current, hfold]
      rfl
    have hnone : ∀ i ∈ m.live, (released.foldl Dispatcher.makeReady
        (a.setState a.current .TERMINATED)).state i ≠ .RUNNING := by
      intro i hi
      by_cases hir : i ∈ released
      · rw [hready i hir]
        decide
      · rw [hother i hir]
        exact h.running.leave (by decide) i hi
    have hspec := schedule_retire_spec hrep₂ hq₂ (by rw [hcur₂]; exact hterm)
      (by rw [hcur₂]; exact hfree)
    rw [hrun]
    rcases hspec with ⟨hsel, herr⟩ | ⟨⟨p, t, ht⟩, s', hsched, hrep'⟩
    · refine Or.inl ⟨trivial, fun p => ?_, herr⟩
      have hempty := hq₂.ready_eq_nil hsel p
      rw [List.eq_nil_iff_forall_not_mem]
      intro i hi
      have hmem := hkeep p i hi
      rw [hempty] at hmem
      exact List.not_mem_nil hmem
    · obtain ⟨hq', hr'⟩ := hq₂.retire (by rw [hcur₂]; exact h.running.1)
        (by rw [hcur₂]; exact hterm) hnone hrep₂.ready_nodup hrep₂.ready_disjoint ht
      exact Or.inr ⟨s', hsched, hrep', hq', hr'⟩
  | block =>
    rcases kiBlockThread_spec h.rep h.queued h.running with
      ⟨hsel, herr⟩ | ⟨⟨p, t, ht⟩, s', hrun, hrep'⟩
    · exact Or.inl ⟨trivial, h.queued.ready_eq_nil hsel, herr⟩
    · obtain ⟨hq', hr'⟩ := h.queued.block h.running hnodup hdisj ht
      exact Or.inr ⟨s', hrun, hrep', hq', hr'⟩
  | setPriority t p =>
    obtain ⟨ht, hlo, hhi⟩ := he
    exact Or.inr ⟨_, rfl, psSetTheadPriority_spec h.rep t p, h.queued.setPriority hlo hhi,
      h.running⟩
  | reap =>
    obtain ⟨s', hrun, hrep'⟩ := kiReapThread_spec h.rep h.queued
    refine Or.inr ⟨s', ?_, hrep', h.queued.reap, h.running⟩
    simp only [schedStep, hrun, kernel_ok_bind]
    rfl
  | free t =>
    obtain ⟨ht, hterm, hexit⟩ := he
    rw [h.rep.state] at hterm
    have hexited : schedExited m.sched = a.exited := (h.rep.lists.each none).listElements_eq
    rw [hexited] at hexit
    have htc : a.current ≠ t := by
      rintro rfl
      rw [h.current_state] at hterm
      cases hterm
    refine Or.inr ⟨m.sched, rfl, h.rep, h.queued.erase hterm hexit, ?_⟩
    exact ⟨Finset.mem_erase.mpr ⟨htc, h.running.1⟩,
      fun i hi => h.running.2 i (Finset.mem_of_mem_erase hi)⟩

/-! ## Runs -/

/-- **The abstract scheduler that a memory represents**, if it represents one. -/
def Sched.dispatcher (s : Sched τ) : Dispatcher τ where
  state t := (s.tcb t).State
  priority t := (s.tcb t).Priority
  ready p := schedQueue p s
  exited := schedExited s
  current := s.CurrentThread

/-- A memory represents at most one abstract scheduler. -/
theorem Sched.Represents.eq_dispatcher {s : Sched τ} (h : s.Represents a) : a = s.dispatcher := by
  obtain ⟨state, priority, ready, exited, current⟩ := a
  have hstate : state = fun t => (s.tcb t).State := funext fun t => (h.state t).symm
  have hprio : priority = fun t => (s.tcb t).Priority := funext fun t => (h.priority t).symm
  have hready : ready = fun p => schedQueue p s :=
    funext fun p => (h.lists.each (some p)).listElements_eq.symm
  have hexited : exited = schedExited s := (h.lists.each none).listElements_eq.symm
  have hcur : current = s.CurrentThread := h.current.symm
  subst hstate hprio hready hexited hcur
  rfl

/-- The queues at the start. -/
theorem schedInvariant_init {start : Option τ} (h : (schedSystem start).init m) :
    SchedInvariant m m.sched.dispatcher := by
  obtain ⟨hcl, hrun, hready, hstart, hprio, hqueue, hexit⟩ := h
  let a₀ : Dispatcher τ :=
    { m.sched.dispatcher with ready := startQueue start m.sched, exited := [] }
  have hmem : ∀ p t, t ∈ a₀.ready p → some t = start ∧ p = (m.sched.tcb t).Priority := by
    intro p t ht
    have ht' : t ∈ startQueue start m.sched p := ht
    unfold startQueue at ht'
    cases start with
    | none => exact absurd ht' List.not_mem_nil
    | some i =>
      simp only at ht'
      split at ht'
      · obtain rfl := List.mem_singleton.mp ht'
        exact ⟨rfl, by assumption⟩
      · exact absurd ht' List.not_mem_nil
  have hrep : m.sched.Represents a₀ := by
    refine ⟨fun _ => rfl, fun _ => rfl, rfl, ?_, ?_⟩
    · intro k
      cases k with
      | none =>
        show IsList _ _ _ m.sched.ExitThreadList []
        rw [hexit]
        exact isList_listInit
      | some p => exact hqueue p
    · intro j k hjk t htj htk
      cases j with
      | none => exact List.not_mem_nil htj
      | some p =>
        cases k with
        | none => exact List.not_mem_nil htk
        | some q =>
          have hpq : p = q := (hmem p t htj).2.trans (hmem q t htk).2.symm
          exact hjk (congrArg some hpq)
  have hqueued : a₀.Queued m.live none := by
    refine ⟨?_, ?_, fun t ht => absurd ht List.not_mem_nil, fun t ht => (by cases ht), hprio⟩
    · intro p t ht
      obtain ⟨hts, rfl⟩ := hmem p t ht
      have htl := hstart t hts
      exact ⟨htl, (hready t htl).mpr hts, by simp, hprio t htl⟩
    · intro t ht hs _
      refine ⟨(m.sched.tcb t).Priority, ?_⟩
      show t ∈ startQueue start m.sched (m.sched.tcb t).Priority
      rw [← (hready t ht).mp hs]
      simp [startQueue]
  rw [← hrep.eq_dispatcher]
  exact ⟨hrep, hqueued, hcl, hrun⟩

/-- **One step of a run**: the abstract scheduler takes the corresponding step. -/
theorem schedInvariant_step {start : Option τ} {t : List (SchedEvent τ × SchedMachine τ)}
    {m m' : SchedMachine τ} {l : SchedEvent τ × SchedMachine τ}
    (h : SchedInvariant m m.sched.dispatcher) (hs : (schedSystem start).step t m l m') :
    SchedInvariant m' m'.sched.dispatcher
      ∧ m'.sched.dispatcher = m.sched.dispatcher.step l.1 := by
  obtain ⟨-, he, hrun, hlive⟩ := hs
  rcases schedStep_spec h he with ⟨-, -, err, herr⟩ | ⟨s', hok, hinv⟩
  · rw [herr] at hrun
    cases hrun
  · rw [hok] at hrun
    obtain rfl := Except.ok.inj hrun
    have heq := hinv.rep.eq_dispatcher
    obtain ⟨sched, live⟩ := m'
    simp only at hlive heq hinv
    subst hlive
    rw [heq] at hinv
    exact ⟨hinv, heq.symm⟩

/-- **The queues hold exactly the ready threads in every state that a run reaches.** -/
theorem schedInvariant_run {start : Option τ} {t : List (SchedEvent τ × SchedMachine τ)}
    (h : (schedSystem start).Run t m) : SchedInvariant m m.sched.dispatcher := by
  refine h.invariant (I := fun _ m => SchedInvariant m m.sched.dispatcher) ?_ ?_
  · exact fun m hm => schedInvariant_init hm
  · exact fun t m l m' _ hinv hs => (schedInvariant_step hinv hs).1

/-! ## The idle thread -/

namespace Dispatcher

/-- The thread is ready or running. -/
def Runnable (a : Dispatcher τ) (i : τ) : Prop := a.state i = .READY ∨ a.state i = .RUNNING

variable {i t : τ}

theorem Runnable.makeReady (h : a.Runnable i) : (a.makeReady t).Runnable i := by
  rw [Runnable, makeReady_state]
  split
  · exact Or.inl rfl
  · exact h

theorem Runnable.dispatch (h : a.Runnable i) : (a.dispatch t).Runnable i := by
  by_cases hit : i = t
  · subst hit
    exact Or.inr (a.setState_self i _)
  · rw [Runnable, show (a.dispatch t).state i = a.state i from a.setState_of_ne _ hit]
    exact h

theorem Runnable.setState (h : a.Runnable i) {x : THREAD_STATE} (hit : i ≠ t) :
    (a.setState t x).Runnable i := by
  rw [Runnable, a.setState_of_ne x hit]
  exact h

omit [DecidableEq τ] in
/-- A selection takes no thread out of its state. -/
theorem Runnable.select {a' : Dispatcher τ} {p : Nat} {next : τ} (h : a.Runnable i)
    (hsel : a.select p = (some next, a')) : a'.Runnable i := by
  obtain ⟨q, rest, -, -, -, -, rfl⟩ := select_eq_some hsel
  exact h

theorem Runnable.yield (h : a.Runnable i) : a.yield.Runnable i := by
  rcases hpick : a.select (a.priority a.current) with ⟨next, a₁⟩
  cases next with
  | none => simpa [Dispatcher.yield, hpick] using h
  | some next =>
    have h₁ := ((h.select hpick).makeReady (t := a.current)).dispatch (t := next)
    simpa [Dispatcher.yield, hpick] using h₁

theorem Runnable.retire (h : a.Runnable i) : a.retire.Runnable i := by
  rcases hpick : a.select PROCESS_PRIORITY_IDLE with ⟨next, a₁⟩
  cases next with
  | none => simpa [Dispatcher.retire, hpick] using h
  | some next =>
    have h₁ := h.select hpick
    have h₂ : { a₁ with exited := a₁.exited ++ [a.current] }.Runnable i := h₁
    simpa [Dispatcher.retire, hpick] using h₂.dispatch (t := next)

theorem Runnable.block (h : a.Runnable i) (hi : i ≠ a.current) : a.block.Runnable i := by
  have h₀ := h.setState (x := .WAITING) hi
  rcases hpick : (a.setState a.current .WAITING).select PROCESS_PRIORITY_IDLE with ⟨next, a₁⟩
  cases next with
  | none => simpa [Dispatcher.block, hpick] using h
  | some next => simpa [Dispatcher.block, hpick] using (h₀.select hpick).dispatch (t := next)

/-- **A thread that does not give up the processor for good stays ready or running.** -/
theorem Runnable.step {e : SchedEvent τ} (h : a.Runnable i)
    (hi : i ∈ m.live) (he : e.Enabled m) (hg : e.GivesUp → a.current ≠ i) :
    (a.step e).Runnable i := by
  cases e with
  | create t p process =>
    have hit : i ≠ t := fun e => he.1 (e ▸ hi)
    have h₀ : ((a.setState t .INITIALIZED).setPriority t p).Runnable i := h.setState hit
    exact h₀.makeReady
  | ready t => exact h.makeReady
  | schedule => exact h.yield
  | exit released =>
    have h₀ := h.setState (t := a.current) (x := .TERMINATED) (hg trivial).symm
    have hfold : ∀ (l : List τ) (b : Dispatcher τ), b.Runnable i →
        (l.foldl Dispatcher.makeReady b).Runnable i := by
      intro l
      induction l with
      | nil => exact fun _ hb => hb
      | cons t l ih => exact fun b hb => ih _ hb.makeReady
    exact (hfold released _ h₀).retire
  | block => exact h.block (hg trivial).symm
  | setPriority t p => exact h
  | reap => exact h
  | free t => exact h

end Dispatcher

/-- The idle thread never blocks and never exits. -/
def IdleStays (idle : τ) (t : List (SchedEvent τ × SchedMachine τ)) : Prop :=
  ∀ l ∈ t, l.1.GivesUp → l.2.sched.CurrentThread ≠ idle

/-- An idle thread that never gives up the processor is always ready or running. -/
theorem idle_runnable {idle : τ} {t : List (SchedEvent τ × SchedMachine τ)}
    (h : (schedSystem (some idle)).Run t m) :
    IdleStays idle t → idle ∈ m.live ∧ m.sched.dispatcher.Runnable idle := by
  refine h.invariant (I := fun t m => IdleStays idle t →
    idle ∈ m.live ∧ m.sched.dispatcher.Runnable idle) ?_ ?_
  · rintro m ⟨-, -, hready, hstart, -⟩ -
    have hl := hstart idle rfl
    exact ⟨hl, Or.inl ((hready idle hl).mpr rfl)⟩
  · intro t m l m' hrun ih hs hstay
    obtain ⟨hl, hr⟩ := ih fun l' hl' => hstay l' (List.mem_cons_of_mem l hl')
    have hinv := schedInvariant_run hrun
    obtain ⟨-, hstep⟩ := schedInvariant_step hinv hs
    obtain ⟨hm, he, -, hlive⟩ := hs
    have hg : l.1.GivesUp → m.sched.dispatcher.current ≠ idle := by
      intro hg
      rw [← hm]
      exact hstay l List.mem_cons_self hg
    have hr' := hr.step hl he hg
    rw [hstep]
    refine ⟨?_, hr'⟩
    rw [hlive]
    cases hev : l.1 with
    | create t p process => exact Finset.mem_insert_of_mem hl
    | free t =>
      rw [hev] at he
      refine Finset.mem_erase.mpr ⟨?_, hl⟩
      rintro rfl
      have hterm : m.sched.dispatcher.state idle = .TERMINATED := he.2.1
      rcases hr with hr | hr
      · rw [hterm] at hr
        cases hr
      · rw [hterm] at hr
        cases hr
    | ready _ | schedule | exit _ | block | setPriority _ _ | reap => exact hl

/-! ## The ready queues -/

/-- How often a thread is linked into the queues of the processor. -/
def queueLinks (x : τ) (s : Sched τ) : Nat :=
  ∑ p ∈ Finset.range (PROCESS_PRIORITY_MAX + 1), (schedQueue p s).count x

/-- Under the invariant a thread is linked once if it is ready and not at all otherwise. -/
theorem SchedInvariant.queueLinks_eq (h : SchedInvariant m m.sched.dispatcher) {x : τ}
    (hx : x ∈ m.live) : queueLinks x m.sched = if (m.sched.tcb x).State = .READY then 1 else 0 := by
  split
  · rename_i hready
    obtain ⟨p, hp⟩ := h.queued.ready_mem x hx hready (by simp)
    obtain ⟨-, -, -, -, hhi⟩ := h.queued.ready_state p x hp
    have hone : (schedQueue p m.sched).count x = 1 :=
      List.count_eq_one_of_mem (h.rep.ready_nodup p) hp
    rw [queueLinks, Finset.sum_eq_single p, hone]
    · intro q _ hqp
      exact List.count_eq_zero.mpr (h.rep.ready_disjoint p q hqp.symm x hp)
    · intro hout
      exact absurd (Finset.mem_range.mpr (Nat.lt_succ_of_le hhi)) hout
  · rename_i hready
    refine Finset.sum_eq_zero fun p _ => List.count_eq_zero.mpr ?_
    exact fun hp => hready (h.queued.ready_state p x hp).2.1

/-- **The ready-queue invariant.** In every state between steps a thread that exists is linked
into the queues exactly once if it is ready and not at all otherwise; exactly one thread runs, the
one that has the processor; and no further step can fail an assertion or bugcheck, as long as the
idle thread neither blocks nor exits. -/
theorem ready_queue_invariant {idle : τ} {t : List (SchedEvent τ × SchedMachine τ)}
    (h : (schedSystem (some idle)).Run t m) (hidle : IdleStays idle t) :
    (∀ x ∈ m.live, queueLinks x m.sched = if (m.sched.tcb x).State = .READY then 1 else 0)
    ∧ (m.sched.CurrentThread ∈ m.live
      ∧ ∀ x ∈ m.live, (m.sched.tcb x).State = .RUNNING ↔ x = m.sched.CurrentThread)
    ∧ ∀ e : SchedEvent τ, e.Enabled m → (e.GivesUp → m.sched.CurrentThread ≠ idle) →
        ∃ s', schedStep e m.sched = .ok s' := by
  have hinv := schedInvariant_run h
  refine ⟨fun x hx => hinv.queueLinks_eq hx, hinv.running, ?_⟩
  intro e he hg
  rcases schedStep_spec hinv he with ⟨hgive, hempty, -⟩ | ⟨s', hok, -⟩
  · -- the idle thread is not the current one, so it is ready, and then somebody is queued
    obtain ⟨hl, hr⟩ := idle_runnable h hidle
    have hne := hg hgive
    have hready : m.sched.dispatcher.state idle = .READY :=
      hr.resolve_right fun hrun => hne ((hinv.running.2 idle hl).mp hrun).symm
    obtain ⟨p, hp⟩ := hinv.queued.ready_mem idle hl hready (by simp)
    rw [hempty p] at hp
    exact absurd hp List.not_mem_nil
  · exact ⟨s', hok⟩

/-- Two threads: thread `false` runs, the idle thread `true` is queued at its priority. -/
def twoThreads : SchedMachine Bool where
  sched :=
    { tcb := fun t =>
        { ThreadProcess := 0, Quantum := 3
          State := if t then .READY else .RUNNING
          Priority := if t then 1 else 3
          Scheduler_link := ⟨some t, some t⟩ }
      process := fun _ => ⟨0, 3⟩
      CurrentThread := false
      Scheduler_list := fun p => if p = 1 then ⟨some true, 1⟩ else listInit
      ExitThreadList := listInit
      PageDirectory := 0 }
  live := {false, true}

/-- The two threads are a state to start from. -/
theorem twoThreads_init : (schedSystem (some true)).init twoThreads := by
  refine ⟨by decide, by decide, by decide, ?_, by decide, ?_, rfl⟩
  · intro t ht
    obtain rfl := Option.some.inj ht
    decide
  · intro p
    by_cases hp : p = 1
    · subst hp
      refine ⟨⟨rfl, rfl⟩, rfl, rfl, by decide, fun _ _ => trivial⟩
    · have hqueue : startQueue (some true) twoThreads.sched p = [] := by
        simp [startQueue, twoThreads, hp]
      have hhead : twoThreads.sched.Scheduler_list p = listInit := by simp [twoThreads, hp]
      rw [hqueue, hhead]
      exact isList_listInit

/-- The running thread blocks, and the idle thread takes over. -/
theorem ready_queue_invariant_two : ∃ m, (schedSystem (some true)).Run [(.block, twoThreads)] m
    ∧ queueLinks false m.sched = 0 := by
  have h₁ := (System.Run.start twoThreads_init).step (e := (SchedEvent.block, twoThreads))
    (u := ⟨_, _⟩) ⟨rfl, trivial, rfl, rfl⟩
  have hstay : IdleStays true [(SchedEvent.block, twoThreads)] := by
    intro l hl _
    obtain rfl := List.mem_singleton.mp hl
    decide
  refine ⟨_, h₁, ?_⟩
  exact ((ready_queue_invariant h₁ hstay).1 false (by decide)).trans (by decide)

end KaushOS
