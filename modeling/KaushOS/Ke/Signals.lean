import KaushOS.Ke.LockRuns
import KaushOS.Ke.WaitRuns

/-! # Events, notifications and unlocked checks (`kern/ke/wait.c`)

The rest of `wait.c`: events of both kinds and the headers of threads and processes. Semaphores are
here once more, because `KeReleaseSemaphore` looks at the signal state in front of its locked
section, and other threads may come in between.

* **`keSetEvent`, `keResetEvent`, `keClearEvent`** — events.
* **`SignalSetup`** — how an object is set up, by the code for it.
* **`SignalEvent`, `signalSystem`** — the steps: locked sections, the check of a release, and the
  scheduler.
* **`SignalEvent.run_effect`** — what a step may do to the signal states, whatever the state it is
  taken in. -/

namespace KaushOS

open CircularList Transition

variable {τ ο : Type} [DecidableEq τ] [DecidableEq ο]

/-! ## Events -/

/-- `EVENT_TYPE`. -/
inductive EVENT_TYPE
  | NotificationEvent
  | SynchronizationEvent
  deriving DecidableEq, Repr

/-- The type that `KeInitializeEvent` stores. -/
def EVENT_TYPE.kobject : EVENT_TYPE → KOBJECTS
  | .NotificationEvent => .EventNotificationObject
  | .SynchronizationEvent => .EventSynchronizationObject

/-- `KeInitializeEvent(Event, Type, State)`. -/
def keInitializeEvent (o : ο) (type : EVENT_TYPE) (state : Bool) (k : Ke τ ο) : Ke τ ο :=
  k.setHeader o
    { SignalState := if state then 1 else 0, type := type.kobject, WaitListHead := listInit }

/-- The assertion that an object is an event. -/
def assertEvent (o : ο) (k : Ke τ ο) : Kernel Unit :=
  assert ((k.header o).type = .EventNotificationObject
      ∨ (k.header o).type = .EventSynchronizationObject)
    "(Event->Header.Type == EventNotificationObject) || (Event->Header.Type == EventSynchronizationObject)"

/-- `KeClearEvent(Event)`. -/
def keClearEvent (o : ο) (k : Ke τ ο) : Kernel (Ke τ ο) := do
  assertEvent o k
  return k.setSignal o 0

/-- `KeResetEvent(Event)`. -/
def keResetEvent (o : ο) (k : Ke τ ο) : Kernel (Int × Ke τ ο) := do
  assertEvent o k
  return ((k.header o).SignalState, k.setSignal o 0)

/-- `KeSetEvent(Event, Increment, Wait)`. Whatever the kind of the event, the last thing is to take
the signal back. -/
def keSetEvent (o : ο) (k : Ke τ ο) : Kernel (Int × Ke τ ο) := do
  assertEvent o k
  if (k.header o).type = .EventNotificationObject then
    let k ← kiDHeaderReleaseAll o k
    return ((k.header o).SignalState, k.setSignal o 0)
  else
    let (_, k) ← kiDHeaderRelease o k
    return ((k.header o).SignalState, k.setSignal o 0)

/-- `KeReleaseNotificationDHeader(DHeader, Increment)`. -/
def keReleaseNotificationDHeader (o : ο) (k : Ke τ ο) : Kernel (Ke τ ο) := kiDHeaderReleaseAll o k

/-- `KeReleaseSemaphore`, in front of the locked section: its assertions, and the value that it is
going to return. -/
def keReleaseSemaphoreCheck (o : ο) (k : Ke τ ο) : Kernel Int := do
  assert ((k.header o).SignalState < k.Limit o)
    "Semaphore->Header.SignalState < Semaphore->Limit"
  return (k.header o).SignalState

/-! ## Objects and how they are set up -/

/-- **How an object is set up.** The header of a thread has the type and the signal state that its
creation finds on the stack. -/
inductive SignalSetup
  | semaphore (count limit : Int)
  | event (type : EVENT_TYPE) (state : Bool)
  | process
  | thread (type : KOBJECTS) (signalState : Int)
  deriving DecidableEq, Repr

/-- The code that sets an object up. -/
def SignalSetup.run (o : ο) : SignalSetup → Ke τ ο → Kernel (Ke τ ο)
  | .semaphore count limit, k => keInitializeSemaphore o count limit k
  | .event type state, k => .ok (keInitializeEvent o type state k)
  | .process, k => .ok (keInitDispatcherHeader o .ProcessObject 0 k)
  | .thread type signalState, k => .ok (keInitDispatcherHeader o type signalState k)

/-- The type that an object gets. -/
def SignalSetup.type : SignalSetup → KOBJECTS
  | .semaphore _ _ => .SemaphoreObject
  | .event type _ => type.kobject
  | .process => .ProcessObject
  | .thread type _ => type

/-- The signal state that an object gets. -/
def SignalSetup.signal : SignalSetup → Int
  | .semaphore count _ => count
  | .event _ state => if state then 1 else 0
  | .process => 0
  | .thread _ signalState => signalState

/-- Object `o` is as its set-up leaves it. -/
def SignalSetup.Done (o : ο) (setup : SignalSetup) (k : Ke τ ο) : Prop :=
  ∃ k₁ k₂, setup.run o k₁ = .ok k₂ ∧ k.header o = k₂.header o
    ∧ ∀ count limit, setup = .semaphore count limit → k.Limit o = k₂.Limit o

/-! ## Steps -/

/-- **The kernel state, the threads that exist, and the releases of semaphores on their way**: those
that have passed the check, with the value they are going to return. -/
structure SignalMachine (τ ο : Type) where
  ke : Ke τ ο
  live : Finset τ
  releasing : τ → Option (ο × Int)

/-- `KeGetCurrentThread()`. -/
def SignalMachine.current (m : SignalMachine τ ο) : τ := m.ke.sched.CurrentThread

/-- **The steps of the current thread.** -/
inductive SignalEvent (τ ο : Type)
  /-- A step of the scheduler that wakes nobody up and puts nobody to sleep. -/
  | sched (e : SchedEvent τ)
  /-- `KeWaitForSingleObject`. -/
  | wait (o : ο)
  /-- `KeReleaseSemaphore`, in front of its locked section. -/
  | check (o : ο)
  /-- `KeReleaseSemaphore`, its locked section. -/
  | release (o : ο)
  /-- `KeSetEvent`. -/
  | setEvent (o : ο)
  /-- `KeResetEvent`. -/
  | resetEvent (o : ο)
  /-- `KeClearEvent`. -/
  | clearEvent (o : ο)
  /-- `KeReleaseNotificationDHeader`, when a thread or a process terminates. -/
  | releaseNotification (o : ο)
  deriving DecidableEq

/-- The threads that exist after a step. -/
def SignalEvent.liveAfter (live : Finset τ) : SignalEvent τ ο → Finset τ
  | .sched e => e.liveAfter live
  | _ => live

/-- Whether an object is an event. -/
def SignalSetup.isEvent : SignalSetup → Bool
  | .event _ _ => true
  | _ => false

/-- Whether an object is a semaphore. -/
def SignalSetup.isSemaphore : SignalSetup → Bool
  | .semaphore _ _ => true
  | _ => false

/-- Whether an object is the header of a thread or a process. -/
def SignalSetup.terminates : SignalSetup → Bool
  | .process | .thread _ _ => true
  | _ => false

/-- **Which steps the current thread takes**: it is in one routine at a time, and calls each for an
object of the right kind. -/
def SignalEvent.Enabled (setup : ο → SignalSetup) (m : SignalMachine τ ο) : SignalEvent τ ο → Prop
  | .sched e => e.Enabled ⟨m.ke.sched, m.live⟩ ∧ e.Background
  | .wait _ => m.ke.control m.current = .outside ∧ m.releasing m.current = none
  | .check o => m.ke.control m.current = .outside ∧ m.releasing m.current = none
    ∧ (setup o).isSemaphore = true
  | .release o => m.ke.control m.current = .outside
    ∧ (m.releasing m.current).map Prod.fst = some o
  | .setEvent o | .resetEvent o | .clearEvent o =>
    m.ke.control m.current = .outside ∧ m.releasing m.current = none ∧ (setup o).isEvent = true
  | .releaseNotification o =>
    m.ke.control m.current = .outside ∧ m.releasing m.current = none ∧ (setup o).terminates = true

/-- Which steps of the scheduler are background steps can be decided. -/
instance SchedEvent.decidableBackground (e : SchedEvent τ) : Decidable e.Background := by
  cases e <;> unfold SchedEvent.Background <;> infer_instance

/-- Which steps of the scheduler are taken can be decided. -/
instance SchedEvent.decidableEnabled (m : SchedMachine τ) (e : SchedEvent τ) :
    Decidable (e.Enabled m) := by
  cases e <;> unfold SchedEvent.Enabled <;> infer_instance

/-- Which steps are taken can be decided. -/
instance SignalEvent.decidableEnabled (setup : ο → SignalSetup) (m : SignalMachine τ ο)
    (e : SignalEvent τ ο) : Decidable (e.Enabled setup m) := by
  cases e <;> unfold SignalEvent.Enabled <;> infer_instance

/-- A new thread is in no release. -/
def SignalEvent.newReleasing (releasing : τ → Option (ο × Int)) :
    SignalEvent τ ο → τ → Option (ο × Int)
  | .sched (.create t _ _) => Function.update releasing t none
  | _ => releasing

/-- **What runs in a step**, up to the point where a thread that was blocked takes over. -/
def SignalEvent.runs (m : SignalMachine τ ο) : SignalEvent τ ο → Kernel (Ke τ ο)
  | .sched e => do
    let sched ← schedStep e m.ke.sched
    return newThread e { m.ke with sched }
  | .wait o => do
    let (_, k) ← keWaitForSingleObject o m.ke
    return k
  | .check o => do
    let _ ← keReleaseSemaphoreCheck o m.ke
    return m.ke
  | .release o => do
    let (_, k) ← kiDHeaderRelease o m.ke
    return k
  | .setEvent o => do
    let (_, k) ← keSetEvent o m.ke
    return k
  | .resetEvent o => do
    let (_, k) ← keResetEvent o m.ke
    return k
  | .clearEvent o => keClearEvent o m.ke
  | .releaseNotification o => keReleaseNotificationDHeader o m.ke

/-- The releases on their way after a step. -/
def SignalEvent.releasingAfter (m : SignalMachine τ ο) :
    SignalEvent τ ο → τ → Option (ο × Int)
  | .check o => Function.update m.releasing m.current (some (o, (m.ke.header o).SignalState))
  | .release _ => Function.update m.releasing m.current none
  | e => e.newReleasing m.releasing

/-- **A step.** -/
def SignalEvent.run (m : SignalMachine τ ο) (e : SignalEvent τ ο) : Kernel (SignalMachine τ ο) := do
  let k ← e.runs m
  return { ke := keResume k, live := e.liveAfter m.live, releasing := e.releasingAfter m }

/-- **The system of threads and signals.** It starts in any state that the scheduler alone can reach,
with every object just set up and no thread in the routines of `wait.c`. A label records the step and
the state it was taken in. -/
def signalSystem (setup : ο → SignalSetup) :
    System (SignalEvent τ ο × SignalMachine τ ο) (SignalMachine τ ο) where
  init m := (∃ start tr, (schedSystem start).Run tr ⟨m.ke.sched, m.live⟩)
    ∧ (∀ t ∈ m.live, m.ke.control t = .outside ∧ m.ke.WaitBlockList t = listInit)
    ∧ (∀ t, m.releasing t = none) ∧ ∀ o, (setup o).Done o m.ke
  step _ m l m' := l.2 = m ∧ l.1.Enabled setup m ∧ l.1.run m = .ok m'

/-! ## What a step does to the signal states -/

section Signal

variable {k k' : Ke τ ο} {o i : ο} {m m' : SignalMachine τ ο} {e : SignalEvent τ ο}
  {setup : ο → SignalSetup}

/-- The limits, types and signal states of `k'` are those of `k`. -/
structure SameSignals (k k' : Ke τ ο) : Prop where
  signal : ∀ i, (k'.header i).SignalState = (k.header i).SignalState
  type : ∀ i, (k'.header i).type = (k.header i).type
  limit : k'.Limit = k.Limit

omit [DecidableEq τ] [DecidableEq ο] in
theorem SameSignals.refl (k : Ke τ ο) : SameSignals k k := ⟨fun _ => rfl, fun _ => rfl, rfl⟩

omit [DecidableEq τ] [DecidableEq ο] in
theorem SameSignals.trans {k'' : Ke τ ο} (h : SameSignals k k') (h' : SameSignals k' k'') :
    SameSignals k k'' :=
  ⟨fun i => (h'.signal i).trans (h.signal i), fun i => (h'.type i).trans (h.type i),
    h'.limit.trans h.limit⟩

omit [DecidableEq τ] in
/-- Storing back a wait list is nothing to the signal states. -/
theorem sameSignals_setWaitList (k : Ke τ ο) (o : ο) (head : ListHead τ)
    (blocks : τ → KWAIT_BLOCK τ ο) : SameSignals k (k.setWaitList o head blocks) :=
  ⟨fun i => signal_setWaitList k o i head blocks, fun i => type_setWaitList k o i head blocks, rfl⟩

/-- Neither is the resumption of a thread. -/
theorem sameSignals_keResume (k : Ke τ ο) : SameSignals k (keResume k) := by
  obtain ⟨-, hheader, hlimit⟩ := keResume_frame k
  exact ⟨fun i => by rw [hheader], fun i => by rw [hheader], hlimit⟩

/-- The loop over the wait blocks of a thread leaves the signal states alone. -/
theorem sameSignals_waitAnyLoop {thread block : τ} {n : Nat}
    (hrun : waitAnyLoop thread block n k = .ok k') : SameSignals k k' := by
  induction n generalizing k with
  | zero =>
    rw [waitAnyLoop] at hrun
    split at hrun
    · cases hrun
      exact .refl _
    · cases hrun
  | succ n ih =>
    rw [waitAnyLoop] at hrun
    split at hrun
    · cases hrun
      exact .refl _
    · obtain ⟨⟨head, blocks⟩, -, hrun⟩ := kernel_bind_eq_ok.mp hrun
      obtain ⟨object, -, hrun⟩ := kernel_bind_eq_ok.mp hrun
      obtain ⟨⟨head', blocks'⟩, -, hrun⟩ := kernel_bind_eq_ok.mp hrun
      have hfirst : SameSignals k { k with
          waitBlock := blocks, WaitBlockList := Function.update k.WaitBlockList thread head } :=
        ⟨fun _ => rfl, fun _ => rfl, rfl⟩
      exact (hfirst.trans (sameSignals_setWaitList _ _ _ _)).trans (ih hrun)

/-- The release of a thread with several wait blocks leaves the signal states alone. -/
theorem sameSignals_releaseMultiple {thread block : τ}
    (hrun : releaseMultiple thread block k = .ok k') : SameSignals k k' := by
  obtain ⟨⟨head, blocks⟩, -, hrun⟩ := kernel_bind_eq_ok.mp hrun
  have hfirst : SameSignals k { k with
      waitBlock := blocks, WaitBlockList := Function.update k.WaitBlockList thread head } :=
    ⟨fun _ => rfl, fun _ => rfl, rfl⟩
  simp only at hrun
  split at hrun
  · exact hfirst.trans (sameSignals_waitAnyLoop hrun)
  · cases hrun
    exact hfirst

/-- The loop that releases all waiters leaves the signal states alone. -/
theorem sameSignals_releaseAllLoop {n : Nat} (hrun : releaseAllLoop o n k = .ok k') :
    SameSignals k k' := by
  induction n generalizing k with
  | zero =>
    rw [releaseAllLoop] at hrun
    split at hrun
    · cases hrun
      exact .refl _
    · cases hrun
  | succ n ih =>
    rw [releaseAllLoop] at hrun
    split at hrun
    · cases hrun
      exact .refl _
    · obtain ⟨⟨block, head, blocks⟩, -, hrun⟩ := kernel_bind_eq_ok.mp hrun
      obtain ⟨block, -, hrun⟩ := kernel_bind_eq_ok.mp hrun
      obtain ⟨_, -, hrun⟩ := kernel_bind_eq_ok.mp hrun
      obtain ⟨thread, -, hrun⟩ := kernel_bind_eq_ok.mp hrun
      have hlist := sameSignals_setWaitList k o head blocks
      have hlast : ∀ {k₁ : Ke τ ο} {c : Prop} [Decidable c], SameSignals k k₁ →
          (if c then do
            let sched ← kiReadyThread thread k₁.sched
            releaseAllLoop o n { k₁ with sched }
          else releaseAllLoop o n k₁) = .ok k' → SameSignals k k' := by
        intro k₁ c _ hk₁ hrest
        split at hrest
        · obtain ⟨sched, -, hrest⟩ := kernel_bind_eq_ok.mp hrest
          have hsched : SameSignals k₁ { k₁ with sched } := ⟨fun _ => rfl, fun _ => rfl, rfl⟩
          exact (hk₁.trans hsched).trans (ih hrest)
        · exact hk₁.trans (ih hrest)
      by_cases hsingle :
          listEmpty ((k.setWaitList o head blocks).WaitBlockList thread) = true
      · simp only [hsingle, if_true, kernel_ok_bind] at hrun
        exact hlast hlist hrun
      · simp only [hsingle] at hrun
        obtain ⟨k₂, hmultiple, hrun⟩ := kernel_bind_eq_ok.mp hrun
        exact hlast (hlist.trans (sameSignals_releaseMultiple hmultiple)) hrun

/-- **What an operation does to the signal state of one object**, which becomes `x`; nothing else
changes. -/
structure SetsSignal (k k' : Ke τ ο) (o : ο) (x : Int) : Prop where
  signal : ∀ i, (k'.header i).SignalState = if i = o then x else (k.header i).SignalState
  type : ∀ i, (k'.header i).type = (k.header i).type
  limit : k'.Limit = k.Limit

omit [DecidableEq τ] in
/-- A store to a signal state, behind operations that leave them alone. -/
theorem SameSignals.setSignal (h : SameSignals k k') (o : ο) (x : Int) :
    SetsSignal k (k'.setSignal o x) o x := by
  refine ⟨fun i => ?_, fun i => (type_setSignal k' o i x).trans (h.type i), h.limit⟩
  rw [signal_setSignal, h.signal i]

omit [DecidableEq τ] in
/-- A second store replaces the first. -/
theorem SetsSignal.setSignal {y : Int} (h : SetsSignal k k' o y) (x : Int) :
    SetsSignal k (k'.setSignal o x) o x := by
  refine ⟨fun i => ?_, fun i => (type_setSignal k' o i x).trans (h.type i), h.limit⟩
  rw [signal_setSignal, h.signal i]
  split
  · rfl
  · rfl

/-- A wait takes one unit, or leaves the signal states alone. -/
theorem kiDHeaderAcquire_signal {outcome : WaitOutcome}
    (hrun : kiDHeaderAcquire o k = .ok (outcome, k')) :
    (outcome = .blocked ∧ (k.header o).SignalState = 0 ∧ SameSignals k k')
    ∨ (outcome = .acquired ∧ 0 < (k.header o).SignalState
      ∧ SetsSignal k k' o ((k.header o).SignalState - 1)) := by
  rw [kiDHeaderAcquire] at hrun
  split at hrun
  · rename_i hzero
    obtain ⟨⟨head, blocks⟩, -, hrun⟩ := kernel_bind_eq_ok.mp hrun
    obtain ⟨sched, -, hrun⟩ := kernel_bind_eq_ok.mp hrun
    obtain ⟨rfl, rfl⟩ := Prod.mk.inj (Except.ok.inj hrun)
    have hlist := sameSignals_setWaitList (kiInitWaitBlock o k) o head blocks
    exact Or.inl ⟨rfl, hzero, ⟨hlist.signal, hlist.type, hlist.limit⟩⟩
  · obtain ⟨_, hpos, hrun⟩ := kernel_bind_eq_ok.mp hrun
    obtain ⟨rfl, rfl⟩ := Prod.mk.inj (Except.ok.inj hrun)
    exact Or.inr ⟨rfl, assert_eq_ok.mp hpos, (SameSignals.refl k).setSignal o _⟩

/-- A release adds one unit, or leaves the signal states alone. -/
theorem kiDHeaderRelease_signal {handed : Option τ}
    (hrun : kiDHeaderRelease o k = .ok (handed, k')) :
    (listEmpty (k.header o).WaitListHead = false ∧ SameSignals k k')
    ∨ (listEmpty (k.header o).WaitListHead = true
      ∧ SetsSignal k k' o ((k.header o).SignalState + 1)) := by
  obtain ⟨_, -, hrun⟩ := kernel_bind_eq_ok.mp hrun
  obtain ⟨_, -, hrun⟩ := kernel_bind_eq_ok.mp hrun
  split at hrun
  · rename_i hempty
    obtain ⟨rfl, rfl⟩ := Prod.mk.inj (Except.ok.inj hrun)
    exact Or.inr ⟨hempty, (SameSignals.refl k).setSignal o _⟩
  · rename_i hempty
    refine Or.inl ⟨by simpa using hempty, ?_⟩
    obtain ⟨⟨block, head, blocks⟩, -, hrun⟩ := kernel_bind_eq_ok.mp hrun
    obtain ⟨block, -, hrun⟩ := kernel_bind_eq_ok.mp hrun
    obtain ⟨_, -, hrun⟩ := kernel_bind_eq_ok.mp hrun
    obtain ⟨thread, -, hrun⟩ := kernel_bind_eq_ok.mp hrun
    have hlist := sameSignals_setWaitList k o head blocks
    split at hrun
    · obtain ⟨sched, -, hrun⟩ := kernel_bind_eq_ok.mp hrun
      obtain ⟨rfl, rfl⟩ := Prod.mk.inj (Except.ok.inj hrun)
      exact ⟨hlist.signal, hlist.type, hlist.limit⟩
    · obtain ⟨k₁, hmultiple, hrun⟩ := kernel_bind_eq_ok.mp hrun
      obtain ⟨rfl, rfl⟩ := Prod.mk.inj (Except.ok.inj hrun)
      exact hlist.trans (sameSignals_releaseMultiple hmultiple)

/-- A release of all waiters sets the signal state to 1. -/
theorem kiDHeaderReleaseAll_signal (hrun : kiDHeaderReleaseAll o k = .ok k') :
    SetsSignal k k' o 1 := by
  obtain ⟨_, -, hrun⟩ := kernel_bind_eq_ok.mp hrun
  obtain ⟨_, -, hrun⟩ := kernel_bind_eq_ok.mp hrun
  obtain ⟨k₁, hloop, hrun⟩ := kernel_bind_eq_ok.mp hrun
  cases hrun
  exact (sameSignals_releaseAllLoop hloop).setSignal o 1

/-- **Setting an event leaves it unsignalled**, whatever its kind. -/
theorem keSetEvent_signal {state : Int} (hrun : keSetEvent o k = .ok (state, k')) :
    SetsSignal k k' o 0 := by
  obtain ⟨_, -, hrun⟩ := kernel_bind_eq_ok.mp hrun
  split at hrun
  · obtain ⟨k₁, hall, hrun⟩ := kernel_bind_eq_ok.mp hrun
    obtain ⟨rfl, rfl⟩ := Prod.mk.inj (Except.ok.inj hrun)
    exact (kiDHeaderReleaseAll_signal hall).setSignal 0
  · obtain ⟨⟨handed, k₁⟩, hrelease, hrun⟩ := kernel_bind_eq_ok.mp hrun
    obtain ⟨rfl, rfl⟩ := Prod.mk.inj (Except.ok.inj hrun)
    rcases kiDHeaderRelease_signal hrelease with ⟨-, hsame⟩ | ⟨-, hsets⟩
    · exact hsame.setSignal o 0
    · exact hsets.setSignal 0

/-- Waiting takes one unit or none. -/
theorem keWaitForSingleObject_signal {outcome : WaitOutcome}
    (hrun : keWaitForSingleObject o k = .ok (outcome, k')) :
    (outcome = .blocked ∧ (k.header o).SignalState = 0 ∧ SameSignals k k')
    ∨ (outcome = .acquired ∧ 0 < (k.header o).SignalState
      ∧ SetsSignal k k' o ((k.header o).SignalState - 1)) := by
  by_cases htype : (k.header o).type = .MutantObject
  · obtain ⟨-, hpos, rfl, rfl⟩ := (keWaitForSingleObject_mutant_eq_ok htype).mp hrun
    have hsets := (SameSignals.refl k).setSignal o ((k.header o).SignalState - 1)
    exact Or.inr ⟨rfl, hpos, hsets.signal, hsets.type, hsets.limit⟩
  · exact kiDHeaderAcquire_signal (keWaitForSingleObject_acquire htype hrun)

/-- **What a step does to the signal states.** -/
def SignalEvent.Effect (k k' : Ke τ ο) : SignalEvent τ ο → Prop
  | .sched _ | .check _ => SameSignals k k'
  | .wait o => ((k.header o).SignalState = 0 ∧ SameSignals k k')
    ∨ (0 < (k.header o).SignalState ∧ SetsSignal k k' o ((k.header o).SignalState - 1))
  | .release o => (listEmpty (k.header o).WaitListHead = false ∧ SameSignals k k')
    ∨ (listEmpty (k.header o).WaitListHead = true
      ∧ SetsSignal k k' o ((k.header o).SignalState + 1))
  | .setEvent o | .resetEvent o | .clearEvent o => SetsSignal k k' o 0
  | .releaseNotification o => SetsSignal k k' o 1

omit [DecidableEq τ] in
/-- Operations that leave the signal states alone may follow. -/
theorem SignalEvent.Effect.trans {k'' : Ke τ ο} (h : e.Effect k k') (h' : SameSignals k' k'') :
    e.Effect k k'' := by
  have hset : ∀ {o x}, SetsSignal k k' o x → SetsSignal k k'' o x := fun hs =>
    ⟨fun i => (h'.signal i).trans (hs.signal i), fun i => (h'.type i).trans (hs.type i),
      h'.limit.trans hs.limit⟩
  cases e with
  | sched e | check o => exact SameSignals.trans h h'
  | wait o | release o =>
    rcases h with ⟨hl, hs⟩ | ⟨hl, hs⟩
    · exact Or.inl ⟨hl, hs.trans h'⟩
    · exact Or.inr ⟨hl, hset hs⟩
  | setEvent o | resetEvent o | clearEvent o | releaseNotification o => exact hset h

/-- **Every step has its effect**, in whatever state it is taken. -/
theorem SignalEvent.run_effect (hrun : e.run m = .ok m') : e.Effect m.ke m'.ke := by
  obtain ⟨k, hruns, hrun⟩ := kernel_bind_eq_ok.mp hrun
  cases hrun
  refine SignalEvent.Effect.trans ?_ (sameSignals_keResume k)
  cases e with
  | sched e =>
    obtain ⟨sched, -, hruns⟩ := kernel_bind_eq_ok.mp hruns
    cases hruns
    obtain ⟨-, -, hheader, hlimit, -⟩ := newThread_frame e { m.ke with sched }
    exact ⟨fun i => by rw [hheader], fun i => by rw [hheader], hlimit⟩
  | wait o =>
    obtain ⟨⟨outcome, k₁⟩, hwait, hruns⟩ := kernel_bind_eq_ok.mp hruns
    cases hruns
    rcases keWaitForSingleObject_signal hwait with ⟨-, hs, hsame⟩ | ⟨-, hs, hsets⟩
    · exact Or.inl ⟨hs, hsame⟩
    · exact Or.inr ⟨hs, hsets⟩
  | check o =>
    obtain ⟨_, -, hruns⟩ := kernel_bind_eq_ok.mp hruns
    cases hruns
    exact SameSignals.refl _
  | release o =>
    obtain ⟨⟨handed, k₁⟩, hrelease, hruns⟩ := kernel_bind_eq_ok.mp hruns
    cases hruns
    exact kiDHeaderRelease_signal hrelease
  | setEvent o =>
    obtain ⟨⟨state, k₁⟩, hset, hruns⟩ := kernel_bind_eq_ok.mp hruns
    cases hruns
    exact keSetEvent_signal hset
  | resetEvent o =>
    obtain ⟨⟨state, k₁⟩, hreset, hruns⟩ := kernel_bind_eq_ok.mp hruns
    cases hruns
    obtain ⟨_, -, hreset⟩ := kernel_bind_eq_ok.mp hreset
    obtain ⟨-, rfl⟩ := Prod.mk.inj (Except.ok.inj hreset)
    exact (SameSignals.refl _).setSignal o 0
  | clearEvent o =>
    obtain ⟨_, -, hruns⟩ := kernel_bind_eq_ok.mp hruns
    cases hruns
    exact (SameSignals.refl _).setSignal o 0
  | releaseNotification o => exact kiDHeaderReleaseAll_signal hruns

/-- The state after a step, in parts. -/
theorem SignalEvent.run_parts (hrun : e.run m = .ok m') :
    (∃ k, e.runs m = .ok k) ∧ m'.releasing = e.releasingAfter m := by
  obtain ⟨k, hruns, hrun⟩ := kernel_bind_eq_ok.mp hrun
  cases hrun
  exact ⟨⟨k, hruns⟩, rfl⟩

omit [DecidableEq ο] in
/-- Steps outside `KeReleaseSemaphore` start no release. -/
theorem SignalEvent.newReleasing_some {releasing : τ → Option (ο × Int)} {t : τ} {x : ο × Int}
    (h : e.newReleasing releasing t = some x) : releasing t = some x := by
  cases e with
  | sched e =>
    cases e with
    | create u p process =>
      by_cases ht : t = u
      · subst ht
        simp [SignalEvent.newReleasing] at h
      · simpa [SignalEvent.newReleasing, ht] using h
    | ready _ | schedule | exit _ | block | setPriority _ _ | reap | free _ => exact h
  | wait _ | check _ | release _ | setEvent _ | resetEvent _ | clearEvent _
  | releaseNotification _ => exact h

end Signal

/-! ## Two threads and one object -/

/-- Two threads of one priority, of which `false` runs. -/
def equalThreads : SchedMachine Bool where
  sched :=
    { tcb := fun t =>
        { ThreadProcess := 0, Quantum := 3
          State := if t then .READY else .RUNNING
          Priority := 3
          Scheduler_link := ⟨some t, some t⟩ }
      process := fun _ => ⟨0, 3⟩
      CurrentThread := false
      Scheduler_list := fun p => if p = 3 then ⟨some true, 1⟩ else listInit
      ExitThreadList := listInit
      PageDirectory := 0 }
  live := {false, true}

/-- The two threads are a state to start from. -/
theorem equalThreads_init : (schedSystem (some true)).init equalThreads := by
  refine ⟨by decide, by decide, by decide, ?_, by decide, ?_, rfl⟩
  · intro t ht
    obtain rfl := Option.some.inj ht
    decide
  · intro p
    by_cases hp : p = 3
    · subst hp
      exact ⟨⟨rfl, rfl⟩, rfl, rfl, by decide, fun _ _ => trivial⟩
    · have hqueue : startQueue (some true) equalThreads.sched p = [] := by
        simp [startQueue, equalThreads, hp]
      have hhead : equalThreads.sched.Scheduler_list p = listInit := by simp [equalThreads, hp]
      rw [hqueue, hhead]
      exact isList_listInit

/-- The two threads and one object. -/
def twoThreadsSignal (setup : SignalSetup) : SignalMachine Bool Unit where
  ke :=
    { sched := equalThreads.sched
      waitBlock := fun _ => ⟨none, none, .WAIT_TYPE_ANY, ⟨none, none⟩, ⟨none, none⟩⟩
      WaitBlockList := fun _ => listInit
      header := fun _ => ⟨listInit, setup.type, setup.signal⟩
      Limit := fun _ => match setup with | .semaphore _ limit => limit | _ => 0
      OwnerThread := fun _ => none
      control := fun _ => .outside }
  live := equalThreads.live
  releasing := fun _ => none

/-- The two threads and their object are a state to start from. -/
theorem twoThreadsSignal_init {setup : SignalSetup}
    (hlimit : ∀ count limit, setup = .semaphore count limit → count ≤ limit) :
    (signalSystem fun _ => setup).init (twoThreadsSignal setup) := by
  refine ⟨⟨some true, [], .start equalThreads_init⟩, fun _ _ => ⟨rfl, rfl⟩, fun _ => rfl,
    fun _ => ⟨(twoThreadsSignal setup).ke, (twoThreadsSignal setup).ke, ?_, rfl, fun _ _ _ => rfl⟩⟩
  cases setup with
  | semaphore count limit =>
    simp [SignalSetup.run, keInitializeSemaphore, keInitDispatcherHeader, Ke.setHeader,
      hlimit count limit rfl, twoThreadsSignal, SignalSetup.type, SignalSetup.signal]
  | event type state =>
    simp [SignalSetup.run, keInitializeEvent, Ke.setHeader, twoThreadsSignal, SignalSetup.type,
      SignalSetup.signal]
  | process | thread type signalState =>
    simp [SignalSetup.run, keInitDispatcherHeader, Ke.setHeader, twoThreadsSignal,
      SignalSetup.type, SignalSetup.signal]

/-- **A closed run** of two threads, by carrying out the steps. -/
theorem twoThreadsSignal_run (setup : SignalSetup)
    (hlimit : ∀ count limit, setup = .semaphore count limit → count ≤ limit)
    (events : List (SignalEvent Bool Unit))
    (observe : List (SignalEvent Bool Unit × SignalMachine Bool Unit) → SignalMachine Bool Unit
      → Bool)
    (hplay : (play (fun e m => decide (e.Enabled (fun _ => setup) m)) (fun e m => e.run m) events
      ([], twoThreadsSignal setup)).map (fun x => observe x.1 x.2) = some true) :
    ∃ tr m, (signalSystem fun _ => setup).Run tr m ∧ observe tr m = true :=
  System.Run.play_observed (fun e m => decide (e.Enabled (fun _ => setup) m)) (fun e m => e.run m)
    (fun _ _ _ _ hen hrun => by exact ⟨rfl, of_decide_eq_true hen, hrun⟩) events observe
    (.start (twoThreadsSignal_init hlimit)) hplay

end KaushOS
