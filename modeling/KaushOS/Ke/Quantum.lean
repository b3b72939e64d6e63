import KaushOS.Ke.Dpc
import KaushOS.Ke.SchedulerOrder
import Mathlib.Data.Int.Basic

/-! # The end of a quantum

`KiReadyThread` gives a thread its quantum, every timer tick takes one from the running thread, and
from zero on each tick asks for a reschedule: it inserts the DPC that calls `Schedule`. The counter is a
`LONG`, is reloaded only when the thread is queued again, and goes on down while nothing else is ready.

* **`kiThreadTimerISR`** — the tick.
* **`tickSystem`** — the scheduler, the DPC queue and the timer in any order.
* **`TicksSinceReady`** — the ticks that a thread has received since it was made ready.
* **`Sched.Reloads`** — which counters a step of the scheduler reloads; it leaves the others alone.
* **`quantum_eq`** — the counter is the quantum less these ticks, as a 32-bit number.
* **`quantum_expiry_iff`** — a run asks for a reschedule at every tick after the end of a quantum if and
  only if no counter goes below `-2 ^ 31` while no request is pending.

The decrement of a `LONG` is taken to wrap around, as the instruction does. -/

namespace KaushOS

open CircularList Transition

variable {τ ι : Type} [DecidableEq τ] [DecidableEq ι]

/-! ## Ticks -/

/-- **The threads, the DPC queue, and what has happened to the queue.** -/
structure TickMachine (τ ι : Type) where
  sched : SchedMachine τ
  dpc : DpcState ι
  history : List (DpcEvent ι)

/-- The steps of the machine. -/
inductive TickEvent (τ ι : Type)
  | sched (e : SchedEvent τ)
  | dpc (e : DpcEvent ι)
  /-- A timer interrupt. -/
  | tick

/-- **`KiThreadTimerISR`**, for the scheduling DPC `d` of the processor; the result of the insertion is
not used. -/
def kiThreadTimerISR (d : ι) (m : TickMachine τ ι) : Kernel (TickMachine τ ι) :=
  let current := m.sched.sched.CurrentThread
  let s := m.sched.sched.modify current fun tcb => { tcb with Quantum := tcb.Quantum - 1 }
  if (s.tcb current).Quantum ≤ 0 then do
    let (queued, dpc) ← keInsertQueueDpc d 0 0 m.dpc
    return ⟨⟨s, m.sched.live⟩, dpc, .insert d 0 0 (m.dpc.dpc d).Importance queued :: m.history⟩
  else .ok { m with sched := ⟨s, m.sched.live⟩ }

/-- A step, with the machine before and after it. -/
structure TickStep (τ ι : Type) where
  event : TickEvent τ ι
  before : TickMachine τ ι
  after : TickMachine τ ι

/-- **The scheduler, the DPC queue and the timer.** At the start the DPC `d` has been set up, and a thread
that is ready has its quantum. -/
def tickSystem (start : Option τ) (d : ι) : System (TickStep τ ι) (TickMachine τ ι) where
  init m := (schedSystem start).init m.sched
    ∧ (∀ x ∈ start, (m.sched.sched.tcb x).Quantum
      = (m.sched.sched.process (m.sched.sched.tcb x).ThreadProcess).Quantum)
    ∧ (dpcSystem ι).Run m.history m.dpc ∧ DpcInitialized m.history d
  step _ m l m' := l.before = m ∧ l.after = m' ∧
    match l.event with
    | .sched e => (schedSystem start).step [] m.sched (e, m.sched) m'.sched ∧ m'.dpc = m.dpc
        ∧ m'.history = m.history
    | .dpc e => (dpcSystem ι).step m.history m.dpc e m'.dpc ∧ m'.history = e :: m.history
        ∧ m'.sched = m.sched
    | .tick => kiThreadTimerISR d m = .ok m'

/-! ## What threads have received -/

/-- The step runs `KiReadyThread(x)`. -/
def SchedEvent.Readies (e : SchedEvent τ) (s : Sched τ) (x : τ) : Prop :=
  match e with
  | .create t _ _ | .ready t => t = x
  | .schedule => s.CurrentThread = x ∧ ∃ s', KaushOS.schedule s = .ok s' ∧ s'.CurrentThread ≠ x
  | .exit released => x ∈ released
  | .block | .setPriority _ _ | .reap | .free _ => False

/-- The step makes the thread `x` ready. -/
def TickStep.Readies (l : TickStep τ ι) (x : τ) : Prop :=
  match l.event with
  | .sched e => e.Readies l.before.sched.sched x
  | .dpc _ | .tick => False

/-- The step is a tick that the thread `x` receives. -/
def TickStep.Counts (l : TickStep τ ι) (x : τ) : Prop :=
  match l.event with
  | .tick => l.before.sched.sched.CurrentThread = x
  | .sched _ | .dpc _ => False

/-- **The thread `x` has received `k` ticks since it was last made ready.** -/
inductive TicksSinceReady (start : Option τ) (x : τ) : List (TickStep τ ι) → Nat → Prop
  | start (h : x ∈ start) : TicksSinceReady start x [] 0
  | ready {l : TickStep τ ι} {t : List (TickStep τ ι)} (h : l.Readies x) :
      TicksSinceReady start x (l :: t) 0
  | tick {l : TickStep τ ι} {t : List (TickStep τ ι)} {k : Nat} (h : l.Counts x)
      (ht : TicksSinceReady start x t k) : TicksSinceReady start x (l :: t) (k + 1)
  | other {l : TickStep τ ι} {t : List (TickStep τ ι)} {k : Nat} (h : ¬ l.Readies x)
      (hc : ¬ l.Counts x) (ht : TicksSinceReady start x t k) : TicksSinceReady start x (l :: t) k

/-- The quantum of the process of a thread. -/
def TickMachine.quantum (m : TickMachine τ ι) (x : τ) : Int32 :=
  (m.sched.sched.process (m.sched.sched.tcb x).ThreadProcess).Quantum

/-- **The step is a tick at or after the end of a quantum**: with this tick, the running thread has
received `k` ticks since it was made ready, and its quantum is not more. -/
def TickStep.Expires (start : Option τ) (l : TickStep τ ι) (t : List (TickStep τ ι)) (k : Nat) : Prop :=
  ∃ x, l.Counts x ∧ TicksSinceReady start x (l :: t) k ∧ (l.before.quantum x).toInt ≤ k

/-- **At every tick after the end of a quantum** the DPC is on the list when the tick is over. -/
def ExpiryRequests (start : Option τ) (d : ι) : List (TickStep τ ι) → Prop
  | [] => True
  | l :: t => (∀ k, l.Expires start t k → d ∈ dpcQueue keGetCurrentProcessorNumber l.after.dpc)
      ∧ ExpiryRequests start d t

/-- **At every tick after the end of a quantum** the counter has not wrapped around, or the DPC is still
on the list. -/
def CountsDown (start : Option τ) (d : ι) : List (TickStep τ ι) → Prop
  | [] => True
  | l :: t => (∀ k, l.Expires start t k → ∀ x, l.Counts x →
        Int.bmod ((l.before.quantum x).toInt - k) (2 ^ 32) ≤ 0
          ∨ d ∈ dpcQueue keGetCurrentProcessorNumber l.before.dpc)
      ∧ CountsDown start d t

/-! ## Which counters are reloaded -/

/-- The members of a thread other than its link. -/
def KTHREAD.unlinked (r : KTHREAD τ) : KTHREAD τ := { r with Scheduler_link := ⟨none, none⟩ }

omit [DecidableEq τ] in
/-- Threads that agree up to their links. -/
theorem KTHREAD.of_unlinked {a b : KTHREAD τ} (h : a.unlinked = b.unlinked) :
    a.Quantum = b.Quantum ∧ a.ThreadProcess = b.ThreadProcess ∧ a.State = b.State := by
  have hquantum := congrArg KTHREAD.Quantum h
  have hprocess := congrArg KTHREAD.ThreadProcess h
  have hstate := congrArg KTHREAD.State h
  exact ⟨hquantum, hprocess, hstate⟩

/-- Link writes keep the other members. -/
theorem setLink_unlinked {f : τ → KTHREAD τ} (tcb : τ → KTHREAD τ) (a : τ) (e : KListEntry τ)
    (h : ∀ i, (tcb i).unlinked = f i) (i : τ) :
    (Function.update tcb a ((KTHREAD.schedulerLink τ).set (tcb a) e) i).unlinked = f i := by
  by_cases hi : i = a
  · subst hi
    rw [Function.update_self]
    exact h i
  · rw [Function.update_of_ne hi]
    exact h i

/-- **The counters of the threads in `r` are reloaded**, and nothing happens to those of the others. -/
def Sched.Reloads (r : τ → Prop) (s s' : Sched τ) : Prop :=
  s'.process = s.process
    ∧ ∀ x, (r x → (s'.tcb x).Quantum = (s'.process (s'.tcb x).ThreadProcess).Quantum)
      ∧ (¬ r x → (s'.tcb x).Quantum = (s.tcb x).Quantum
        ∧ (s'.tcb x).ThreadProcess = (s.tcb x).ThreadProcess)

section Reloads

variable {s s' s'' : Sched τ} {r q : τ → Prop}

omit [DecidableEq τ] in
/-- One step after another. -/
theorem Sched.Reloads.trans (h : s.Reloads r s') (h' : s'.Reloads q s'') :
    s.Reloads (fun x => r x ∨ q x) s'' := by
  refine ⟨h'.1.trans h.1, fun x => ⟨fun hx => ?_, fun hx => ?_⟩⟩
  · by_cases hq : q x
    · exact (h'.2 x).1 hq
    · obtain ⟨hquantum, hprocess⟩ := (h'.2 x).2 hq
      rw [hquantum, hprocess, h'.1]
      exact (h.2 x).1 (hx.resolve_right hq)
  · obtain ⟨hquantum, hprocess⟩ := (h'.2 x).2 fun hq => hx (Or.inr hq)
    obtain ⟨hquantum₀, hprocess₀⟩ := (h.2 x).2 fun hr => hx (Or.inl hr)
    exact ⟨hquantum.trans hquantum₀, hprocess.trans hprocess₀⟩

omit [DecidableEq τ] in
/-- The same threads, said in another way. -/
theorem Sched.Reloads.of_iff (h : s.Reloads r s') (hiff : ∀ x, q x ↔ r x) : s.Reloads q s' := by
  have hq : q = r := funext fun x => propext (hiff x)
  exact hq ▸ h

omit [DecidableEq τ] in
/-- A change of links reloads nothing. -/
theorem Sched.Reloads.of_unlinked (hprocess : s'.process = s.process)
    (h : ∀ x, (s'.tcb x).unlinked = (s.tcb x).unlinked) : s.Reloads (fun _ => False) s' :=
  ⟨hprocess, fun x => ⟨False.elim, fun _ =>
    ⟨(KTHREAD.of_unlinked (h x)).1, (KTHREAD.of_unlinked (h x)).2.1⟩⟩⟩

/-- A store to the state or to the priority reloads nothing. -/
theorem Sched.Reloads.modify (s : Sched τ) (t : τ) {g : KTHREAD τ → KTHREAD τ}
    (hquantum : ∀ r, (g r).Quantum = r.Quantum)
    (hprocess : ∀ r, (g r).ThreadProcess = r.ThreadProcess) :
    s.Reloads (fun _ => False) (s.modify t g) := by
  refine ⟨rfl, fun x => ⟨False.elim, fun _ => ?_⟩⟩
  by_cases hx : x = t
  · subst hx
    rw [Sched.modify_self]
    exact ⟨hquantum _, hprocess _⟩
  · rw [Sched.modify_of_ne s t g hx]
    exact ⟨rfl, rfl⟩

/-- **`KiReadyThread`** reloads the counter of the thread, and marks it as ready. -/
theorem kiReadyThread_reloads {t : τ} (hrun : kiReadyThread t s = .ok s') :
    s.Reloads (fun x => x = t) s' ∧ s'.CurrentThread = s.CurrentThread
      ∧ ∀ x, (s.tcb x).State = .TERMINATED → (s'.tcb x).State = .TERMINATED := by
  simp only [kiReadyThread] at hrun
  split at hrun
  · cases hrun
  rename_i hstate
  obtain ⟨⟨head, tcb⟩, hinsert, hrun⟩ := kernel_bind_eq_ok.mp hrun
  cases hrun
  let s₁ := s.modify t fun tcb => { tcb with State := .READY }
  let s₂ := s₁.modify t fun tcb => { tcb with Quantum := (s₁.process tcb.ThreadProcess).Quantum }
  have hlinks : ∀ x, (tcb x).unlinked = (s₂.tcb x).unlinked := by
    refine listInsertTail_keeps (P := fun tcb => ∀ x, (tcb x).unlinked = (s₂.tcb x).unlinked)
      ?_ ?_ hinsert fun _ => rfl
    · exact fun tcb a o htcb => setLink_unlinked tcb a _ htcb
    · exact fun tcb a o htcb => setLink_unlinked tcb a _ htcb
  have hself : s₂.tcb t = { s.tcb t with
      State := .READY, Quantum := (s.process (s.tcb t).ThreadProcess).Quantum } := by
    simp [s₂, s₁]
  have hother : ∀ x, x ≠ t → s₂.tcb x = s.tcb x := fun x hx => by
    rw [Sched.modify_of_ne s₁ t _ hx, Sched.modify_of_ne s t _ hx]
  refine ⟨⟨rfl, fun x => ⟨fun hx => ?_, fun hx => ?_⟩⟩, rfl, fun x hx => ?_⟩
  · subst hx
    obtain ⟨hquantum, hprocess, -⟩ := KTHREAD.of_unlinked (hlinks x)
    rw [hself] at hquantum hprocess
    show (tcb x).Quantum = (s.process (tcb x).ThreadProcess).Quantum
    rw [show (tcb x).ThreadProcess = (s.tcb x).ThreadProcess from hprocess]
    exact hquantum
  · obtain ⟨hquantum, hprocess, -⟩ := KTHREAD.of_unlinked (hlinks x)
    rw [hother x hx] at hquantum hprocess
    exact ⟨hquantum, hprocess⟩
  · have hxt : x ≠ t := by
      rintro rfl
      exact hstate (by simp [hx])
    obtain ⟨-, -, hsame⟩ := KTHREAD.of_unlinked (hlinks x)
    rw [hother x hxt] at hsame
    exact hsame.trans hx

/-- Many threads are made ready. -/
theorem foldlM_kiReadyThread_reloads (l : List τ)
    (hrun : l.foldlM (fun s t => kiReadyThread t s) s = .ok s') :
    s.Reloads (fun x => x ∈ l) s' ∧ s'.CurrentThread = s.CurrentThread
      ∧ ∀ x, (s.tcb x).State = .TERMINATED → (s'.tcb x).State = .TERMINATED := by
  induction l generalizing s with
  | nil =>
    cases hrun
    refine ⟨?_, rfl, fun _ h => h⟩
    exact (Sched.Reloads.of_unlinked rfl fun _ => rfl).of_iff (by simp)
  | cons t l ih =>
    rw [List.foldlM_cons] at hrun
    obtain ⟨s₁, hready, hrun⟩ := kernel_bind_eq_ok.mp hrun
    obtain ⟨hreload, hcur, hterm⟩ := kiReadyThread_reloads hready
    obtain ⟨hreload', hcur', hterm'⟩ := ih hrun
    refine ⟨(hreload.trans hreload').of_iff (by simp), hcur'.trans hcur, fun x hx => ?_⟩
    exact hterm' x (hterm x hx)

/-- Selecting reloads nothing, and leaves the states alone. -/
theorem kiSelectNextThread_reloads {p : Nat} {next : Option τ}
    (hrun : kiSelectNextThread p s = .ok (next, s')) :
    s.Reloads (fun _ => False) s' ∧ s'.CurrentThread = s.CurrentThread := by
  obtain ⟨u, -, hrun⟩ := kernel_bind_eq_ok.mp hrun
  obtain ⟨u, -, hrun⟩ := kernel_bind_eq_ok.mp hrun
  obtain ⟨priority, -, hrun⟩ := kernel_bind_eq_ok.mp hrun
  cases priority with
  | none =>
    cases hrun
    exact ⟨Sched.Reloads.of_unlinked rfl fun _ => rfl, rfl⟩
  | some priority =>
    obtain ⟨⟨thread, head, tcb⟩, hremove, hrun⟩ := kernel_bind_eq_ok.mp hrun
    obtain ⟨u, -, hrun⟩ := kernel_bind_eq_ok.mp hrun
    cases hrun
    refine ⟨Sched.Reloads.of_unlinked rfl ?_, rfl⟩
    refine listRemoveHead_keeps (P := fun tcb => ∀ i, (tcb i).unlinked = (s.tcb i).unlinked) ?_ ?_
      hremove fun _ => rfl
    · exact fun tcb a o htcb => setLink_unlinked tcb a _ htcb
    · exact fun tcb a o htcb => setLink_unlinked tcb a _ htcb

/-- Switching reloads nothing. -/
theorem kiSwapThread_reloads {current next : τ} (hrun : kiSwapThread current next s = .ok s') :
    s.Reloads (fun _ => False) s' ∧ s'.CurrentThread = next := by
  obtain ⟨u, -, hrun⟩ := kernel_bind_eq_ok.mp hrun
  obtain ⟨u, -, hrun⟩ := kernel_bind_eq_ok.mp hrun
  obtain ⟨u, -, hrun⟩ := kernel_bind_eq_ok.mp hrun
  cases hrun
  refine ⟨?_, rfl⟩
  exact Sched.Reloads.modify s next (g := fun tcb => { tcb with State := .RUNNING }) (fun _ => rfl)
    fun _ => rfl

/-- **`Schedule`** reloads the counter of a thread that yields. -/
theorem schedule_reloads (hrun : schedule s = .ok s') :
    s.Reloads (fun x => (s.tcb s.CurrentThread).State ≠ .TERMINATED
      ∧ s.CurrentThread = x ∧ s'.CurrentThread ≠ x) s' := by
  simp only [schedule] at hrun
  split at hrun
  · rename_i hterm
    obtain ⟨⟨next, s₁⟩, hselect, hrun⟩ := kernel_bind_eq_ok.mp hrun
    obtain ⟨u, -, hrun⟩ := kernel_bind_eq_ok.mp hrun
    obtain ⟨u, -, hrun⟩ := kernel_bind_eq_ok.mp hrun
    obtain ⟨⟨head, tcb⟩, hinsert, hrun⟩ := kernel_bind_eq_ok.mp hrun
    obtain ⟨n, -, hrun⟩ := kernel_bind_eq_ok.mp hrun
    have hlinks : s₁.Reloads (fun _ => False) { s₁ with tcb, ExitThreadList := head } := by
      refine Sched.Reloads.of_unlinked rfl ?_
      refine listInsertTail_keeps (P := fun tcb => ∀ x, (tcb x).unlinked = (s₁.tcb x).unlinked)
        ?_ ?_ hinsert fun _ => rfl
      · exact fun tcb a o htcb => setLink_unlinked tcb a _ htcb
      · exact fun tcb a o htcb => setLink_unlinked tcb a _ htcb
    have hselected := (kiSelectNextThread_reloads hselect).1
    exact ((hselected.trans hlinks).trans (kiSwapThread_reloads hrun).1).of_iff (by simp [hterm])
  · rename_i hterm
    obtain ⟨⟨next, s₁⟩, hselect, hrun⟩ := kernel_bind_eq_ok.mp hrun
    obtain ⟨u, hne, hrun⟩ := kernel_bind_eq_ok.mp hrun
    obtain ⟨hselected, hcur⟩ := kiSelectNextThread_reloads hselect
    cases next with
    | none =>
      cases hrun
      refine hselected.of_iff fun x => ?_
      rw [hcur]
      simp
    | some next =>
      obtain ⟨s₂, hready, hrun⟩ := kernel_bind_eq_ok.mp hrun
      obtain ⟨hswapped, hnext⟩ := kiSwapThread_reloads hrun
      have hother : s.CurrentThread ≠ next := fun heq => assert_eq_ok.mp hne (congrArg some heq)
      refine ((hselected.trans (kiReadyThread_reloads hready).1).trans hswapped).of_iff fun x => ?_
      rw [hnext]
      constructor
      · rintro ⟨-, hx, -⟩
        exact Or.inl (Or.inr hx.symm)
      · intro hx
        obtain rfl : x = s.CurrentThread := by simpa using hx
        exact ⟨hterm, rfl, hother.symm⟩

/-- Blocking reloads nothing. -/
theorem kiBlockThread_reloads (hrun : kiBlockThread s = .ok s') : s.Reloads (fun _ => False) s' := by
  obtain ⟨u, -, hrun⟩ := kernel_bind_eq_ok.mp hrun
  obtain ⟨⟨next, s₁⟩, hselect, hrun⟩ := kernel_bind_eq_ok.mp hrun
  obtain ⟨u, -, hrun⟩ := kernel_bind_eq_ok.mp hrun
  obtain ⟨n, -, hrun⟩ := kernel_bind_eq_ok.mp hrun
  have hwaiting := Sched.Reloads.modify s s.CurrentThread
    (g := fun tcb => { tcb with State := .WAITING }) (fun _ => rfl) fun _ => rfl
  have hselected := (kiSelectNextThread_reloads hselect).1
  exact ((hwaiting.trans hselected).trans (kiSwapThread_reloads hrun).1).of_iff (by simp)

/-- Cleaning up reloads nothing. -/
theorem kiReapThread_reloads {thread : Option τ} (hrun : kiReapThread s = .ok (thread, s')) :
    s.Reloads (fun _ => False) s' := by
  obtain ⟨⟨t, head, tcb⟩, hremove, hrun⟩ := kernel_bind_eq_ok.mp hrun
  have hlinks : s.Reloads (fun _ => False) { s with tcb, ExitThreadList := head } := by
    refine Sched.Reloads.of_unlinked rfl ?_
    refine listRemoveHead_keeps (P := fun tcb => ∀ i, (tcb i).unlinked = (s.tcb i).unlinked) ?_ ?_
      hremove fun _ => rfl
    · exact fun tcb a o htcb => setLink_unlinked tcb a _ htcb
    · exact fun tcb a o htcb => setLink_unlinked tcb a _ htcb
  cases t with
  | none =>
    cases hrun
    exact hlinks
  | some t =>
    obtain ⟨u, -, hrun⟩ := kernel_bind_eq_ok.mp hrun
    cases hrun
    exact hlinks

/-- **Every step of the scheduler** reloads the counters of the threads that it makes ready. -/
theorem schedStep_reloads {m : SchedMachine τ} {a : Dispatcher τ} (hinv : SchedInvariant m a)
    {e : SchedEvent τ} (hrun : schedStep e m.sched = .ok s') :
    m.sched.Reloads (e.Readies m.sched) s' := by
  have hrunning : (m.sched.tcb m.sched.CurrentThread).State = .RUNNING := by
    rw [hinv.rep.current, hinv.rep.state, hinv.current_state]
  cases e with
  | create t p process =>
    -- the new thread gets a process, and then its counter
    obtain ⟨⟨hprocess, hready⟩, -⟩ := kiReadyThread_reloads hrun
    refine ⟨hprocess, fun x => ⟨fun hx => (hready x).1 (Eq.symm hx), fun hx => ?_⟩⟩
    have hxt : x ≠ t := fun heq => hx (Eq.symm heq)
    have hsame := (hready x).2 hxt
    rw [Sched.modify_of_ne _ t _ hxt] at hsame
    exact hsame
  | ready t => exact (kiReadyThread_reloads hrun).1.of_iff fun x => eq_comm
  | schedule =>
    refine (schedule_reloads hrun).of_iff fun x => ?_
    constructor
    · rintro ⟨hx, s₁, hok, hne⟩
      obtain rfl : s' = s₁ := Except.ok.inj (hrun.symm.trans hok)
      exact ⟨by simp [hrunning], hx, hne⟩
    · rintro ⟨-, hx, hne⟩
      exact ⟨hx, s', hrun, hne⟩
  | exit released =>
    obtain ⟨u, -, hrun⟩ := kernel_bind_eq_ok.mp hrun
    obtain ⟨s₁, hfold, hrun⟩ := kernel_bind_eq_ok.mp hrun
    have hterminated := Sched.Reloads.modify m.sched m.sched.CurrentThread
      (g := fun tcb => { tcb with State := .TERMINATED }) (fun _ => rfl) fun _ => rfl
    obtain ⟨hreleased, hcur, hterm⟩ := foldlM_kiReadyThread_reloads released hfold
    have hgone : (s₁.tcb s₁.CurrentThread).State = .TERMINATED := by
      rw [hcur]
      refine hterm _ ?_
      rw [Sched.modify_CurrentThread, Sched.modify_self]
    refine ((hterminated.trans hreleased).trans (schedule_reloads hrun)).of_iff fun x => ?_
    simp [hgone, SchedEvent.Readies]
  | block => exact kiBlockThread_reloads hrun
  | setPriority t p =>
    cases hrun
    exact Sched.Reloads.modify m.sched t (g := fun tcb => { tcb with Priority := p }) (fun _ => rfl)
      fun _ => rfl
  | reap =>
    obtain ⟨⟨thread, s₁⟩, hreap, hrun⟩ := kernel_bind_eq_ok.mp hrun
    cases hrun
    exact kiReapThread_reloads hreap
  | free t =>
    cases hrun
    exact Sched.Reloads.of_unlinked rfl fun _ => rfl

end Reloads

/-! ## Runs -/

variable {start : Option τ} {d : ι} {t : List (TickStep τ ι)} {m m' : TickMachine τ ι} {x : τ}
  {k : Nat}

/-- **A tick** takes one from the counter of the running thread, and queues the DPC when nothing is left;
otherwise the queue stays as it is. -/
theorem kiThreadTimerISR_spec (hq : DpcInvariant m.history m.dpc)
    (hd : DpcInitialized m.history d) :
    ∃ m', kiThreadTimerISR d m = .ok m'
      ∧ m'.sched.sched
        = m.sched.sched.modify m.sched.sched.CurrentThread (fun tcb =>
            { tcb with Quantum := tcb.Quantum - 1 })
      ∧ m'.sched.live = m.sched.live
      ∧ ((dpcSystem ι).Run m.history m.dpc → (dpcSystem ι).Run m'.history m'.dpc)
      ∧ DpcInitialized m'.history d
      ∧ (d ∈ dpcQueue keGetCurrentProcessorNumber m'.dpc
        ↔ (m.sched.sched.tcb m.sched.sched.CurrentThread).Quantum - 1 ≤ 0
          ∨ d ∈ dpcQueue keGetCurrentProcessorNumber m.dpc) := by
  let s := m.sched.sched.modify m.sched.sched.CurrentThread fun tcb =>
    { tcb with Quantum := tcb.Quantum - 1 }
  have hcounter : (s.tcb m.sched.sched.CurrentThread).Quantum
      = (m.sched.sched.tcb m.sched.sched.CurrentThread).Quantum - 1 := by
    simp [s]
  by_cases hle : (m.sched.sched.tcb m.sched.sched.CurrentThread).Quantum - 1 ≤ 0
  · obtain ⟨htype, hnumber⟩ := hq.initialized d hd
    obtain ⟨dpc, hinsert, hpending, -⟩ := keInsertQueueDpc_spec hq.pending htype hnumber 0 0
    let e := DpcEvent.insert d 0 0 (m.dpc.dpc d).Importance
      (decide (d ∉ (dpcOrder m.history).queue))
    refine ⟨⟨⟨s, m.sched.live⟩, dpc, e :: m.history⟩, ?_, rfl, rfl, fun hrun => ?_, ?_, ?_⟩
    · rw [kiThreadTimerISR]
      dsimp only
      rw [if_pos (by rw [hcounter]; exact hle), hinsert, kernel_ok_bind]
      rfl
    · exact hrun.step ⟨hd, rfl, hinsert⟩
    · obtain ⟨routine, context, hinit⟩ := hd
      exact ⟨routine, context, List.mem_cons_of_mem _ hinit⟩
    · refine ⟨fun _ => Or.inl hle, fun _ => ?_⟩
      rw [hpending.dpcQueue_eq]
      split
      · assumption
      · split
        · exact List.mem_cons_self
        · exact List.mem_append_right _ List.mem_cons_self
  · refine ⟨{ m with sched := ⟨s, m.sched.live⟩ }, ?_, rfl, rfl, id, hd, ?_⟩
    · rw [kiThreadTimerISR]
      dsimp only
      rw [if_neg (by rw [hcounter]; exact hle)]
    · exact ⟨Or.inr, fun h => h.resolve_left hle⟩

/-- **The invariant of the counters**: a thread that has received `k` ticks since it was made ready has its
quantum less `k`, as a 32-bit number. -/
structure TickMachine.Inv (start : Option τ) (d : ι) (t : List (TickStep τ ι)) (m : TickMachine τ ι) :
    Prop where
  sched : SchedInvariant m.sched m.sched.sched.dispatcher
  queue : (dpcSystem ι).Run m.history m.dpc
  initialized : DpcInitialized m.history d
  counter : ∀ x k, TicksSinceReady start x t k →
    (m.sched.sched.tcb x).Quantum.toInt = ((m.quantum x).toInt - k).bmod (2 ^ 32)

omit [DecidableEq ι] in
/-- A count that goes on over a step that is not a tick. -/
theorem TicksSinceReady.unchanged {l : TickStep τ ι} (h : TicksSinceReady start x (l :: t) k)
    (hc : ¬ l.Counts x) : l.Readies x ∧ k = 0 ∨ ¬ l.Readies x ∧ TicksSinceReady start x t k := by
  cases h with
  | ready hr => exact Or.inl ⟨hr, rfl⟩
  | tick hc' _ => exact absurd hc' hc
  | other hr _ ht => exact Or.inr ⟨hr, ht⟩

/-- What is represented in 32 bits has no more to be reduced. -/
theorem quantum_bmod (q : Int32) : (q.toInt - (0 : Nat)).bmod (2 ^ 32) = q.toInt := by
  have hlow := q.le_toInt
  have hhigh := q.toInt_lt
  rw [Int.bmod_eq_of_le] <;> omega

/-- The counters do not change in a step outside the scheduler. -/
theorem TickMachine.Inv.counter_of_sched_eq (h : m.Inv start d t) {l : TickStep τ ι}
    (hr : ¬ l.Readies x) (hc : ¬ l.Counts x) (hsched : m'.sched = m.sched)
    (hk : TicksSinceReady start x (l :: t) k) :
    (m'.sched.sched.tcb x).Quantum.toInt = ((m'.quantum x).toInt - k).bmod (2 ^ 32) := by
  rw [TickMachine.quantum, hsched]
  rcases hk.unchanged hc with ⟨hr', -⟩ | ⟨-, ht⟩
  · exact absurd hr' hr
  · exact h.counter x k ht

/-- **Every step keeps the invariant.** -/
theorem TickMachine.Inv.step (h : m.Inv start d t) {l : TickStep τ ι}
    (hs : (tickSystem start d).step t m l m') : m'.Inv start d (l :: t) := by
  obtain ⟨event, before, after⟩ := l
  obtain ⟨hbefore, hafter, hs⟩ := hs
  dsimp only at hbefore hafter
  subst hbefore hafter
  cases event with
  | sched e =>
    obtain ⟨hstep, hdpc, hhistory⟩ := hs
    obtain ⟨hinv, -⟩ := schedInvariant_step h.sched hstep
    obtain ⟨hprocess, hreload⟩ := schedStep_reloads h.sched hstep.2.2.1
    refine ⟨hinv, ?_, ?_, fun x k hk => ?_⟩
    · rw [hdpc, hhistory]
      exact h.queue
    · rw [hhistory]
      exact h.initialized
    · rcases hk.unchanged (fun hc => hc) with ⟨hr, rfl⟩ | ⟨hr, ht⟩
      · rw [TickMachine.quantum, (hreload x).1 hr, quantum_bmod]
      · obtain ⟨hquantum, hthread⟩ := (hreload x).2 hr
        rw [TickMachine.quantum, hquantum, hthread, hprocess]
        exact h.counter x k ht
  | dpc e =>
    obtain ⟨hstep, hhistory, hsched⟩ := hs
    refine ⟨?_, ?_, ?_, fun x k hk => ?_⟩
    · rw [hsched]
      exact h.sched
    · rw [hhistory]
      exact h.queue.step hstep
    · obtain ⟨routine, context, hinit⟩ := h.initialized
      rw [hhistory]
      exact ⟨routine, context, List.mem_cons_of_mem e hinit⟩
    · exact h.counter_of_sched_eq (l := ⟨.dpc e, before, after⟩) id id hsched hk
  | tick =>
    obtain ⟨m₁, htick, hsched, hlive, hqueue, hinit, -⟩ :=
      kiThreadTimerISR_spec (dpcInvariant_run h.queue) h.initialized
    obtain rfl : m₁ = after := Except.ok.inj (htick.symm.trans hs)
    have hrep := h.sched.rep.setOther before.sched.sched.CurrentThread
      (f := fun tcb => { tcb with Quantum := tcb.Quantum - 1 }) (fun _ => rfl) (fun _ => rfl)
      fun _ => rfl
    rw [← hsched] at hrep
    have hsame := hrep.eq_dispatcher
    refine ⟨⟨?_, ?_, ?_⟩, hqueue h.queue, hinit, fun x k hk => ?_⟩
    · rw [← hsame]
      exact hrep
    · rw [← hsame, hlive]
      exact h.sched.queued
    · rw [← hsame, hlive]
      exact h.sched.running
    · rw [TickMachine.quantum, hsched]
      cases hk with
      | ready hr => exact absurd hr id
      | @tick _ _ k hc ht =>
        obtain rfl : before.sched.sched.CurrentThread = x := hc
        rw [Sched.modify_self, Int32.toInt_sub, h.counter _ k ht, Sched.modify_process,
          Int.bmod_sub_bmod, TickMachine.quantum]
        congr 1
        have hone : (1 : Int32).toInt = 1 := rfl
        push_cast
        omega
      | other hr hc ht =>
        have hx : x ≠ before.sched.sched.CurrentThread := fun heq => hc heq.symm
        rw [Sched.modify_of_ne _ _ _ hx, Sched.modify_process]
        exact h.counter x k ht

/-- The invariant holds in every state that a run reaches. -/
theorem tickMachine_inv (h : (tickSystem start d).Run t m) : m.Inv start d t := by
  refine h.invariant ?_ fun t m l m' _ ih hs => ih.step hs
  rintro m ⟨hsched, hquantum, hqueue, hinit⟩
  refine ⟨schedInvariant_init hsched, hqueue, hinit, fun x k hk => ?_⟩
  cases hk with
  | start hx => rw [hquantum x hx, quantum_bmod, TickMachine.quantum]

/-- **A tick at or after the end of a quantum** leaves the DPC on the list if and only if the counter has
not wrapped around, or the DPC was on the list before. -/
theorem TickMachine.Inv.expiry (h : m.Inv start d t) {l : TickStep τ ι}
    (hs : (tickSystem start d).step t m l m') (hc : l.Counts x)
    (hk : TicksSinceReady start x (l :: t) k) :
    d ∈ dpcQueue keGetCurrentProcessorNumber l.after.dpc
      ↔ ((l.before.quantum x).toInt - k).bmod (2 ^ 32) ≤ 0
        ∨ d ∈ dpcQueue keGetCurrentProcessorNumber l.before.dpc := by
  have hafter := (h.step hs).counter x k hk
  obtain ⟨event, before, after⟩ := l
  obtain ⟨hbefore, hafter', hs⟩ := hs
  dsimp only at hbefore hafter'
  subst hbefore hafter'
  cases event with
  | sched e => exact absurd hc id
  | dpc e => exact absurd hc id
  | tick =>
    obtain rfl : before.sched.sched.CurrentThread = x := hc
    obtain ⟨m₁, htick, hsched, -, -, -, hqueued⟩ :=
      kiThreadTimerISR_spec (dpcInvariant_run h.queue) h.initialized
    obtain rfl : m₁ = after := Except.ok.inj (htick.symm.trans hs)
    rw [TickMachine.quantum, hsched, Sched.modify_self, Sched.modify_process] at hafter
    rw [hqueued, Int32.le_iff_toInt_le, hafter]
    rfl

omit [DecidableEq τ] [DecidableEq ι] in
/-- One thread receives a tick. -/
theorem TickStep.Counts.unique {l : TickStep τ ι} {y : τ} (hx : l.Counts x) (hy : l.Counts y) :
    x = y := by
  obtain ⟨event, before, after⟩ := l
  cases event with
  | sched e => exact absurd hx id
  | dpc e => exact absurd hx id
  | tick => exact Eq.trans (Eq.symm hx) hy

/-- **The end of a quantum.** In a run of the scheduler, the DPC queue and the timer, every tick that a
thread receives after its quantum is used up leaves the DPC on the list if and only if at each of these
ticks the counter has not wrapped around to a positive number, or the DPC is still on the list from
before. -/
theorem quantum_expiry_iff (h : (tickSystem start d).Run t m) :
    ExpiryRequests start d t ↔ CountsDown start d t := by
  induction h with
  | start h => exact Iff.rfl
  | @step t m l m' hrun hs ih =>
    refine and_congr ?_ ih
    have hexpiry := fun x k => (tickMachine_inv hrun).expiry (x := x) (k := k) hs
    constructor
    · intro hall k hexp x hc
      have hqueued := hall k hexp
      obtain ⟨y, hy, hk, hle⟩ := hexp
      obtain rfl := hc.unique hy
      exact (hexpiry x k hc hk).mp hqueued
    · rintro hall k ⟨x, hc, hk, hle⟩
      exact (hexpiry x k hc hk).mpr (hall k ⟨x, hc, hk, hle⟩ x hc)

/-! ## A thread that runs alone -/

/-- **Ticks, one after another**, while nothing else happens. -/
theorem ticks_run (h : (tickSystem start d).Run t m)
    (hk : TicksSinceReady start m.sched.sched.CurrentThread t k) (n : Nat) :
    ∃ t' m', (tickSystem start d).Run t' m'
      ∧ m'.sched.sched.CurrentThread = m.sched.sched.CurrentThread
      ∧ m'.sched.sched.process = m.sched.sched.process
      ∧ (∀ y, (m'.sched.sched.tcb y).ThreadProcess = (m.sched.sched.tcb y).ThreadProcess)
      ∧ TicksSinceReady start m.sched.sched.CurrentThread t' (k + n) := by
  induction n with
  | zero => exact ⟨t, m, h, rfl, rfl, fun _ => rfl, hk⟩
  | succ n ih =>
    obtain ⟨t₁, m₁, hrun, hcur, hprocess, hthread, hk₁⟩ := ih
    have hinv := tickMachine_inv hrun
    obtain ⟨m₂, htick, hsched, -⟩ :=
      kiThreadTimerISR_spec (dpcInvariant_run hinv.queue) hinv.initialized
    have hstep := hrun.step (e := (⟨.tick, m₁, m₂⟩ : TickStep τ ι)) ⟨rfl, rfl, htick⟩
    refine ⟨_, m₂, hstep, ?_, ?_, fun y => ?_, TicksSinceReady.tick hcur hk₁⟩
    · rw [hsched]
      exact hcur
    · rw [hsched]
      exact hprocess
    · rw [← hthread y, hsched]
      by_cases hy : y = m₁.sched.sched.CurrentThread
      · subst hy
        rw [Sched.modify_self]
      · rw [Sched.modify_of_ne _ _ _ hy]

/-- The idle thread `true` is ready, and the one DPC is set up. -/
def idleMachine : TickMachine Bool Unit where
  sched := twoThreads
  dpc := keInitializeDpc () 0 0 ⟨fun _ => ⟨0, 0, 0, ⟨none, none⟩, 0, 0, 0, 0⟩, fun _ => listInit⟩
  history := [.init () 0 0]

/-- The first thread blocks, and the idle thread runs. -/
theorem idleMachine_run : ∃ (l : TickStep Bool Unit) (m : TickMachine Bool Unit),
    (tickSystem (some true) ()).Run [l] m ∧ m.sched.sched.CurrentThread = true
      ∧ TicksSinceReady (some true) true [l] 0 ∧ m.quantum true = 3 := by
  have hinit : (tickSystem (some true) ()).init idleMachine := by
    refine ⟨twoThreads_init, fun x _ => rfl, ?_, 0, 0, List.mem_cons_self⟩
    have hstart : (dpcSystem Unit).init
        ⟨fun _ => ⟨0, 0, 0, ⟨none, none⟩, 0, 0, 0, 0⟩, fun _ => listInit⟩ := rfl
    exact (System.Run.start hstart).step ⟨by decide, rfl⟩
  have hrun := (System.Run.start hinit).step
    (e := (⟨.sched .block, idleMachine, { idleMachine with sched := ⟨_, _⟩ }⟩ : TickStep Bool Unit))
    ⟨rfl, rfl, ⟨rfl, trivial, rfl, rfl⟩, rfl, rfl⟩
  exact ⟨_, _, hrun, rfl, .other id id (.start rfl), rfl⟩

/-- The idle thread receives three ticks, and its quantum is over. -/
theorem quantum_expiry_iff_idle : ∃ (t : List (TickStep Bool Unit)) (m : TickMachine Bool Unit),
    (tickSystem (some true) ()).Run t m ∧ TicksSinceReady (some true) true t 3
      ∧ (ExpiryRequests (some true) () t ↔ CountsDown (some true) () t) := by
  obtain ⟨l, m, hrun, hcur, hk, -⟩ := idleMachine_run
  obtain ⟨t', m', hrun', -, -, -, hk'⟩ := ticks_run hrun (by rw [hcur]; exact hk) 3
  rw [hcur] at hk'
  exact ⟨t', m', hrun', hk', quantum_expiry_iff hrun'⟩

/-- **A thread that runs alone for long enough stops asking.** The idle thread receives `2 ^ 31 + 3` ticks,
the request that is pending is served, and with the next tick the counter is positive again. -/
theorem quantum_expiry_fails : ¬ ∀ (t : List (TickStep Bool Unit)) (m : TickMachine Bool Unit),
    (tickSystem (some true) ()).Run t m → ExpiryRequests (some true) () t := by
  intro hall
  obtain ⟨l, m, hrun, hcur, hk, hquantum⟩ := idleMachine_run
  obtain ⟨t₁, m₁, hrun₁, hcur₁, hprocess₁, hthread₁, hk₁⟩ :=
    ticks_run hrun (by rw [hcur]; exact hk) (2 ^ 31 + 3)
  have hinv₁ := tickMachine_inv hrun₁
  -- the pending request is served
  have hpending := (dpcInvariant_run hinv₁.queue).pending
  obtain ⟨dpc, hdequeue, hrest, -⟩ := kiDequeueDpc_spec hpending
  have hempty : (dpcOrder m₁.history).queue.tail = [] := by
    cases hqueue : (dpcOrder m₁.history).queue with
    | nil => rfl
    | cons a rest =>
      cases rest with
      | nil => rfl
      | cons b rest =>
        have hnodup := hpending.nodup
        rw [hqueue] at hnodup
        exact absurd (List.mem_cons_self) (List.nodup_cons.mp hnodup).1
  let e : DpcEvent Unit := .dequeue (dpcOrder m₁.history).queue.head?
  let m₂ : TickMachine Bool Unit := { m₁ with dpc, history := e :: m₁.history }
  have hrun₂ := hrun₁.step (e := (⟨.dpc e, m₁, m₂⟩ : TickStep Bool Unit))
    ⟨rfl, rfl, hdequeue, rfl, rfl⟩
  have hk₂ : TicksSinceReady (some true) true _ (2 ^ 31 + 3) :=
    .other (l := ⟨.dpc e, m₁, m₂⟩) id id (by simpa [hcur] using hk₁)
  -- one more tick
  have hinv₂ := tickMachine_inv hrun₂
  obtain ⟨m₃, htick, -⟩ := kiThreadTimerISR_spec (dpcInvariant_run hinv₂.queue) hinv₂.initialized
  have hrun₃ := hrun₂.step (e := (⟨.tick, m₂, m₃⟩ : TickStep Bool Unit)) ⟨rfl, rfl, htick⟩
  have hcounts : TickStep.Counts (⟨.tick, m₂, m₃⟩ : TickStep Bool Unit) true :=
    show m₁.sched.sched.CurrentThread = true from hcur₁.trans hcur
  have hk₃ : TicksSinceReady (some true) true _ (2 ^ 31 + 4) := .tick hcounts hk₂
  have hq : (m₂.quantum true).toInt = 3 := by
    have hsame : m₂.quantum true = m.quantum true := by
      show (m₁.sched.sched.process (m₁.sched.sched.tcb true).ThreadProcess).Quantum = _
      rw [hprocess₁, hthread₁]
      rfl
    rw [hsame, hquantum]
    rfl
  have hqueued := (hall _ _ hrun₃).1 _ ⟨true, hcounts, hk₃, by rw [hq]; omega⟩
  rcases (hinv₂.expiry ⟨rfl, rfl, htick⟩ hcounts hk₃).mp hqueued with hle | hmem
  · dsimp only at hle
    rw [hq] at hle
    exact absurd hle (by decide)
  · have hqueue : dpcQueue keGetCurrentProcessorNumber m₂.dpc = [] :=
      hrest.dpcQueue_eq.trans hempty
    rw [show (⟨.tick, m₂, m₃⟩ : TickStep Bool Unit).before.dpc = m₂.dpc from rfl, hqueue] at hmem
    exact List.not_mem_nil hmem

end KaushOS
