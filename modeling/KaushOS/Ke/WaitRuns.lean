import KaushOS.Ke.WaitLists
import KaushOS.Library.HandOff

/-! # Runs of the dispatcher objects

Threads that wait for semaphores and mutants and release them, in any interleaving of the locked
sections with each other and with the steps of the scheduler.

* **`KeEvent`, `keSystem`** — the steps, and the system over objects that are set up at the start.
* **`KeInvariant.handOff`** — an object as a counted resource with hand-off.
* **`KeEvent.runs_refines`** — each step does to each object what the abstract operation does.
* **`keSystem_refines`** — so does each run. -/

namespace KaushOS

open CircularList Transition

variable {τ ο : Type} [DecidableEq τ] [DecidableEq ο]

/-! ## Steps -/

/-- **The steps of threads and dispatcher objects.** Each is one section that runs with the
dispatcher database locked; the thread named is the one that runs it. -/
inductive KeEvent (τ ο : Type)
  /-- A step of the scheduler that wakes nobody up and puts nobody to sleep. -/
  | sched (e : SchedEvent τ)
  /-- `KeWaitForSingleObject`. -/
  | wait (t : τ) (o : ο) (outcome : WaitOutcome)
  /-- `KeReleaseSemaphore`; the unit is handed to a waiting thread or stored. -/
  | releaseSemaphore (t : τ) (o : ο) (handed : Option τ)
  /-- `KeReleaseMutant` in front of its locked section. -/
  | releaseMutantBegin (t : τ) (o : ο)
  /-- The locked section of `KeReleaseMutant`. -/
  | releaseMutant (t : τ) (o : ο) (handed : Option τ)
  deriving DecidableEq, Repr

/-- **The kernel state together with the threads that exist.** -/
structure KeMachine (τ ο : Type) where
  ke : Ke τ ο
  live : Finset τ

/-- The threads that exist after a step. -/
def KeEvent.liveAfter (live : Finset τ) : KeEvent τ ο → Finset τ
  | .sched e => e.liveAfter live
  | _ => live

/-- A new thread comes from zeroed memory and starts outside the routines of `wait.c`. -/
def newThread : SchedEvent τ → Ke τ ο → Ke τ ο
  | .create t _ _, k =>
    { k with WaitBlockList := Function.update k.WaitBlockList t listInit }.setControl t .outside
  | _, k => k

/-- **What runs in a step**, up to the point where a thread that was blocked takes over. A thread
calls one routine at a time, with an object of the right kind. -/
def KeEvent.Runs (m : KeMachine τ ο) : KeEvent τ ο → Ke τ ο → Prop
  | .sched e, k => e.Enabled ⟨m.ke.sched, m.live⟩ ∧ e.Background
    ∧ ∃ sched, schedStep e m.ke.sched = .ok sched ∧ k = newThread e { m.ke with sched }
  | .wait t o outcome, k => t = m.ke.sched.CurrentThread ∧ m.ke.control t = .outside
    ∧ keWaitForSingleObject o m.ke = .ok (outcome, k)
  | .releaseSemaphore t o handed, k => t = m.ke.sched.CurrentThread ∧ m.ke.control t = .outside
    ∧ (m.ke.header o).type = .SemaphoreObject
    ∧ ∃ old, keReleaseSemaphore o 0 1 m.ke = .ok (old, handed, k)
  | .releaseMutantBegin t o, k => t = m.ke.sched.CurrentThread ∧ m.ke.control t = .outside
    ∧ (m.ke.header o).type = .MutantObject ∧ keReleaseMutantBegin o m.ke = .ok k
  | .releaseMutant t o handed, k => t = m.ke.sched.CurrentThread
    ∧ m.ke.control t = .inReleaseMutant o ∧ (m.ke.header o).type = .MutantObject
    ∧ keReleaseMutantLocked o m.ke = .ok (handed, k)

/-- The wait from which the thread that has the processor now is about to return. -/
def returning (k : Ke τ ο) : Option (τ × ο) :=
  match k.control k.sched.CurrentThread with
  | .inWait o => some (k.sched.CurrentThread, o)
  | _ => none

/-- **A label** records a step, and the blocked wait that has returned in it. -/
abbrev KeLabel (τ ο : Type) := KeEvent τ ο × Option (τ × ο)

/-- How an object is set up; a mutant may be owned from the start by the thread that sets it up. -/
inductive ObjectSetup (τ : Type)
  | semaphore (count limit : Int)
  | mutant (owner : Option τ)
  deriving DecidableEq, Repr

/-- The code that sets an object up. -/
def ObjectSetup.run (o : ο) : ObjectSetup τ → Ke τ ο → Kernel (Ke τ ο)
  | .semaphore count limit, k => keInitializeSemaphore o count limit k
  | .mutant owner, k => .ok (keInitializeMutant o owner.isSome k)

/-- Counts are not negative, and limits within the bound that `wait.c` checks. -/
def ObjectSetup.Valid : ObjectSetup τ → Prop
  | .semaphore count limit => 0 ≤ count ∧ count ≤ limit ∧ limit ≤ MAX_DISPATCH_SIGNAL_STATE
  | .mutant _ => True

/-- The type that an object gets. -/
def ObjectSetup.type : ObjectSetup τ → KOBJECTS
  | .semaphore _ _ => .SemaphoreObject
  | .mutant _ => .MutantObject

/-- The signal state that an object gets. -/
def ObjectSetup.units : ObjectSetup τ → Int
  | .semaphore count _ => count
  | .mutant owner => if owner.isSome then 0 else 1

/-- The thread that owns the object from the start. -/
def ObjectSetup.owner : ObjectSetup τ → Option τ
  | .semaphore _ _ => none
  | .mutant owner => owner

/-- Object `o` is as its set-up leaves it, for a mutant with an owner the set-up by that thread. -/
def ObjectSetup.Done (o : ο) (setup : ObjectSetup τ) (k : Ke τ ο) : Prop :=
  ∃ k₁ k₂, (∀ t, setup.owner = some t → k₁.sched.CurrentThread = t) ∧ setup.run o k₁ = .ok k₂
    ∧ k.header o = k₂.header o ∧ k.Limit o = k₂.Limit o ∧ k.OwnerThread o = k₂.OwnerThread o

/-- **The system of threads and dispatcher objects.** It starts in any state that the scheduler
alone can reach, with every object just set up and no thread in the routines of `wait.c`. -/
def keSystem (setup : ο → ObjectSetup τ) : System (KeLabel τ ο) (KeMachine τ ο) where
  init m := (∃ start tr, (schedSystem start).Run tr ⟨m.ke.sched, m.live⟩)
    ∧ (∀ t ∈ m.live, m.ke.control t = .outside ∧ m.ke.WaitBlockList t = listInit)
    ∧ ∀ o, (setup o).Valid ∧ (setup o).Done o m.ke
  step _ m l m' := ∃ k, l.1.Runs m k ∧ l.2 = returning k ∧ m' = ⟨keResume k, l.1.liveAfter m.live⟩

/-! ## Objects as resources with hand-off -/

/-- **An object as a counted resource**: its signal state and the threads on its wait list. -/
def KeInvariant.handOff {live : Finset τ} {k : Ke τ ο} {w : ο → List τ} (h : KeInvariant live k w)
    (o : ο) : HandOff τ where
  units := (k.header o).SignalState.toNat
  waiting := w o
  idle hu := (h.signal o).2 (by omega)
  nodup := (h.lists.each o).nodup

/-- The operation of a release, from the thread that the unit was handed to. -/
def releaseOp : Option τ → HandOff.Op τ
  | some t => .pass t
  | none => .put

/-- The operation that a step performs on an object. -/
def KeEvent.op (o : ο) : KeEvent τ ο → Option (HandOff.Op τ)
  | .wait t i .acquired => if i = o then some (.take t) else none
  | .wait t i .blocked => if i = o then some (.join t) else none
  | .releaseSemaphore _ i handed | .releaseMutant _ i handed =>
    if i = o then some (releaseOp handed) else none
  | _ => none

/-- The operations that a run performs on an object. -/
def keOps (o : ο) (tr : List (KeLabel τ ο)) : List (HandOff.Op τ) :=
  tr.filterMap fun l => l.1.op o

variable {live live' : Finset τ} {k k' : Ke τ ο} {w w' : ο → List τ} {m m' : KeMachine τ ο}
  {e : KeEvent τ ο} {o : ο}

omit [DecidableEq ο] in
/-- Nothing happens to an object whose signal state and wait list stay the same. -/
theorem handOff_eq (h : KeInvariant live k w) (h' : KeInvariant live' k' w')
    (hs : (k'.header o).SignalState = (k.header o).SignalState) (hw : w' o = w o) :
    h.handOff o = h'.handOff o :=
  HandOff.ext (congrArg Int.toNat hs.symm) hw.symm

omit [DecidableEq τ] in
/-- Signal states change for one object only. -/
theorem signal_setSignal (k : Ke τ ο) (o i : ο) (x : Int) :
    ((k.setSignal o x).header i).SignalState
      = if i = o then x else (k.header i).SignalState := by
  by_cases hi : i = o
  · subst hi
    simp [Ke.setSignal, Ke.setHeader]
  · simp [Ke.setSignal, Ke.setHeader, hi]

omit [DecidableEq τ] in
/-- Types do not change with the signal state. -/
theorem type_setSignal (k : Ke τ ο) (o i : ο) (x : Int) :
    ((k.setSignal o x).header i).type = (k.header i).type := by
  by_cases hi : i = o
  · subst hi
    simp [Ke.setSignal, Ke.setHeader]
  · simp [Ke.setSignal, Ke.setHeader, hi]

/-! ## Each step refines the abstract operation -/

/-- **One state follows another by the given operations on the objects**, and the kinds of the
objects stay the same. -/
structure Follows (h : KeInvariant live k w) (h' : KeInvariant live' k' w')
    (op : ο → Option (HandOff.Op τ)) : Prop where
  after : ∀ i, (h.handOff i).after (op i) = some (h'.handOff i)
  type : ∀ i, (k'.header i).type = (k.header i).type
  limit : k'.Limit = k.Limit

/-- Taking a unit. -/
theorem follows_take (h : KeInvariant live k w) (hs : 0 < (k.header o).SignalState) (t : τ)
    (h' : KeInvariant live (k.setSignal o ((k.header o).SignalState - 1)) w) :
    Follows h h' fun i => if o = i then some (.take t) else none := by
  refine ⟨fun i => ?_, fun i => type_setSignal k o i _, rfl⟩
  have hsig := signal_setSignal k o i ((k.header o).SignalState - 1)
  by_cases hi : i = o
  · subst hi
    rw [if_pos rfl] at hsig ⊢
    refine HandOff.after_some_iff.mpr ⟨?_, rfl⟩
    simp only [KeInvariant.handOff, hsig]
    omega
  · rw [if_neg hi] at hsig
    rw [if_neg (Ne.symm hi)]
    exact congrArg some (handOff_eq h h' hsig rfl)

/-- Storing a unit. -/
theorem follows_put (h : KeInvariant live k w) (hw : w o = [])
    (h' : KeInvariant live (k.setSignal o ((k.header o).SignalState + 1)) w) :
    Follows h h' fun i => if o = i then some .put else none := by
  refine ⟨fun i => ?_, fun i => type_setSignal k o i _, rfl⟩
  have hsig := signal_setSignal k o i ((k.header o).SignalState + 1)
  have hnonneg := (h.signal o).1
  by_cases hi : i = o
  · subst hi
    rw [if_pos rfl] at hsig ⊢
    refine HandOff.after_some_iff.mpr ⟨hw, ?_, hw⟩
    simp only [KeInvariant.handOff, hsig]
    omega
  · rw [if_neg hi] at hsig
    rw [if_neg (Ne.symm hi)]
    exact congrArg some (handOff_eq h h' hsig rfl)

/-- Joining the queue. -/
theorem follows_join (h : KeInvariant live k w) (hs : (k.header o).SignalState = 0) {t : τ}
    (ht : t ∉ w o) (h' : KeInvariant live k' (Function.update w o (w o ++ [t])))
    (hframe : ∀ i, (k'.header i).SignalState = (k.header i).SignalState
      ∧ (k'.header i).type = (k.header i).type) (hlimit : k'.Limit = k.Limit) :
    Follows h h' fun i => if o = i then some (.join t) else none := by
  refine ⟨fun i => ?_, fun i => (hframe i).2, hlimit⟩
  have hsig := (hframe i).1
  by_cases hi : i = o
  · subst hi
    rw [if_pos rfl]
    refine HandOff.after_some_iff.mpr ⟨?_, ht, ?_, ?_⟩
    · simp [KeInvariant.handOff, hs]
    · simp [KeInvariant.handOff, hsig, hs]
    · exact Function.update_self i _ w
  · rw [if_neg (Ne.symm hi)]
    exact congrArg some (handOff_eq h h' hsig (Function.update_of_ne hi _ w))

/-- Handing a unit to the first thread of the queue. -/
theorem follows_pass (h : KeInvariant live k w) {x : τ} {rest : List τ} (hw : w o = x :: rest)
    (h' : KeInvariant live k' (Function.update w o rest))
    (hframe : ∀ i, (k'.header i).SignalState = (k.header i).SignalState
      ∧ (k'.header i).type = (k.header i).type) (hlimit : k'.Limit = k.Limit) :
    Follows h h' fun i => if o = i then some (.pass x) else none := by
  refine ⟨fun i => ?_, fun i => (hframe i).2, hlimit⟩
  have hsig := (hframe i).1
  by_cases hi : i = o
  · subst hi
    rw [if_pos rfl]
    refine HandOff.after_some_iff.mpr ⟨?_, ?_⟩
    · show w i = x :: Function.update w i rest i
      rw [Function.update_self, hw]
    · simp [KeInvariant.handOff, hsig]
  · rw [if_neg (Ne.symm hi)]
    exact congrArg some (handOff_eq h h' hsig (Function.update_of_ne hi _ w))

/-- **A wait that returns or blocks** is an abstract take or join. -/
theorem kiDHeaderAcquire_follows (h : KeInvariant live k w) {outcome : WaitOutcome}
    (hok : kiDHeaderAcquire o k = .ok (outcome, k')) :
    ∃ w', ∃ h' : KeInvariant live k' w',
      Follows h h' fun i => (KeEvent.wait k.sched.CurrentThread o outcome : KeEvent τ ο).op i := by
  have hnonneg := (h.signal o).1
  by_cases hs : (k.header o).SignalState = 0
  · rcases kiDHeaderAcquire_block_spec h hs with ⟨e, herr⟩ | ⟨k₁, hok₁, hinv, hframe, hlimit, -⟩
    · rw [hok] at herr
      cases herr
    · rw [hok] at hok₁
      obtain ⟨rfl, rfl⟩ := Prod.mk.inj (Except.ok.inj hok₁)
      exact ⟨_, hinv, follows_join h hs (h.current_not_mem o) hinv hframe hlimit⟩
  · have hpos : 0 < (k.header o).SignalState := by omega
    rw [kiDHeaderAcquire_of_pos hpos] at hok
    obtain ⟨rfl, rfl⟩ := Prod.mk.inj (Except.ok.inj hok)
    exact ⟨w, h.take hpos, follows_take h hpos _ (h.take hpos)⟩

/-- **A release** is an abstract put or pass, and readies the thread that gets the unit. Which
thread runs, who owns what and who is in the middle of what stays the same. -/
theorem kiDHeaderRelease_follows (h : KeInvariant live k w) {handed : Option τ}
    (hok : kiDHeaderRelease o k = .ok (handed, k')) :
    (∃ w', ∃ h' : KeInvariant live k' w',
      Follows h h' fun i => if o = i then some (releaseOp handed) else none)
    ∧ (∀ x, handed = some x → (k'.sched.tcb x).State = .READY)
    ∧ k'.sched.CurrentThread = k.sched.CurrentThread
    ∧ k'.OwnerThread = k.OwnerThread ∧ k'.control = k.control := by
  cases hw : w o with
  | nil =>
    have hlt : (k.header o).SignalState < MAX_DISPATCH_SIGNAL_STATE := by
      by_contra hge
      rw [kiDHeaderRelease, assert_of_not hge, kernel_error_bind] at hok
      cases hok
    obtain ⟨hok₁, hinv⟩ := kiDHeaderRelease_store_spec h hw hlt
    rw [hok] at hok₁
    obtain ⟨rfl, rfl⟩ := Prod.mk.inj (Except.ok.inj hok₁)
    exact ⟨⟨w, hinv, follows_put h hw hinv⟩, by simp, rfl, rfl, rfl⟩
  | cons x rest =>
    obtain ⟨k₁, hok₁, hinv, hready, hcur, hframe, hlimit, howner, hcontrol⟩ :=
      kiDHeaderRelease_handoff_spec h hw
    rw [hok] at hok₁
    obtain ⟨rfl, rfl⟩ := Prod.mk.inj (Except.ok.inj hok₁)
    refine ⟨⟨_, hinv, follows_pass h hw hinv hframe hlimit⟩, ?_, hcur, howner, hcontrol⟩
    intro y hy
    obtain rfl := Option.some.inj hy
    exact hready

omit [DecidableEq ο] in
/-- Storing owners and recording what threads are in the middle of is no operation. -/
theorem Follows.congr {op : ο → Option (HandOff.Op τ)} {h : KeInvariant live k w}
    {h' : KeInvariant live' k' w'} (hf : Follows h h' op) {k'' : Ke τ ο}
    (h'' : KeInvariant live' k'' w') (hheader : k''.header = k'.header)
    (hlimit : k''.Limit = k'.Limit) : Follows h h'' op := by
  refine ⟨fun i => ?_, fun i => ?_, hlimit.trans hf.limit⟩
  · rw [hf.after i, handOff_eq h' h'' (by rw [hheader]) rfl]
  · rw [hheader]
    exact hf.type i

/-- The state after the current thread has taken a mutant at once. -/
def takeMutant (o : ο) (k : Ke τ ο) : Ke τ ο :=
  { k.setSignal o ((k.header o).SignalState - 1) with
    OwnerThread := Function.update k.OwnerThread o (some k.sched.CurrentThread) }

/-- **A release of a semaphore** is one of the object, below the limit. -/
theorem keReleaseSemaphore_release {old : Int} {handed : Option τ}
    (hok : keReleaseSemaphore o 0 1 k = .ok (old, handed, k')) :
    (k.header o).SignalState < k.Limit o ∧ old = (k.header o).SignalState
      ∧ kiDHeaderRelease o k = .ok (handed, k') := by
  obtain ⟨_, hlimit, hok⟩ := kernel_bind_eq_ok.mp hok
  obtain ⟨_, -, hok⟩ := kernel_bind_eq_ok.mp hok
  obtain ⟨_, -, hok⟩ := kernel_bind_eq_ok.mp hok
  obtain ⟨⟨handed₁, k₁⟩, hrel, hret⟩ := kernel_bind_eq_ok.mp hok
  obtain ⟨rfl, hpair⟩ := Prod.mk.inj (Except.ok.inj hret)
  obtain ⟨rfl, rfl⟩ := Prod.mk.inj hpair
  exact ⟨assert_eq_ok.mp hlimit, rfl, hrel⟩

/-- The first part of a release of a mutant goes through exactly for the owner. -/
theorem keReleaseMutantBegin_eq_ok :
    keReleaseMutantBegin o k = .ok k' ↔ k.OwnerThread o = some k.sched.CurrentThread
      ∧ k' = { k with OwnerThread := Function.update k.OwnerThread o none }.setControl
        k.sched.CurrentThread (.inReleaseMutant o) := by
  rw [keReleaseMutantBegin]
  constructor
  · intro hok
    obtain ⟨_, howner, hret⟩ := kernel_bind_eq_ok.mp hok
    exact ⟨assert_eq_ok.mp howner, (Except.ok.inj hret).symm⟩
  · rintro ⟨howner, rfl⟩
    rw [assert_of_true howner, kernel_ok_bind]
    rfl

/-- The locked section of a release of a mutant is a release of the object. -/
theorem keReleaseMutantLocked_release {handed : Option τ}
    (hok : keReleaseMutantLocked o k = .ok (handed, k')) :
    ∃ k₁, kiDHeaderRelease o k = .ok (handed, k₁)
      ∧ k' = k₁.setControl k₁.sched.CurrentThread .outside := by
  obtain ⟨⟨handed₁, k₁⟩, hrel, hret⟩ := kernel_bind_eq_ok.mp hok
  obtain ⟨rfl, rfl⟩ := Prod.mk.inj (Except.ok.inj hret)
  exact ⟨k₁, hrel, rfl⟩

/-- **A wait for a mutant** returns exactly when the mutant is signalled and the current thread
does not own it. Then it takes the unit and the ownership at once. -/
theorem keWaitForSingleObject_mutant_eq_ok (htype : (k.header o).type = .MutantObject)
    {outcome : WaitOutcome} :
    keWaitForSingleObject o k = .ok (outcome, k') ↔
      k.OwnerThread o ≠ some k.sched.CurrentThread ∧ 0 < (k.header o).SignalState
        ∧ outcome = .acquired ∧ k' = takeMutant o k := by
  rw [keWaitForSingleObject]
  simp only [htype]
  by_cases howner : k.OwnerThread o = some k.sched.CurrentThread
  · rw [assert_of_not (not_not_intro howner), kernel_error_bind]
    simp [howner]
  · rw [assert_of_true howner, kernel_ok_bind]
    by_cases hs : (k.header o).SignalState = 0
    · rw [if_pos hs, assert_of_not id, kernel_error_bind]
      simp [hs]
    · rw [if_neg hs]
      by_cases hpos : 0 < (k.header o).SignalState
      · rw [kiDHeaderAcquire_of_pos hpos, kernel_ok_bind]
        constructor
        · intro hok
          obtain ⟨rfl, rfl⟩ := Prod.mk.inj (Except.ok.inj hok)
          exact ⟨howner, hpos, rfl, rfl⟩
        · rintro ⟨-, -, rfl, rfl⟩
          rfl
      · rw [kiDHeaderAcquire, if_neg hs, assert_of_not hpos]
        simp [hpos]

/-- A wait for an object of another kind is one of `KiDHeaderAcquire`. -/
theorem keWaitForSingleObject_acquire (htype : (k.header o).type ≠ .MutantObject)
    {outcome : WaitOutcome} (hok : keWaitForSingleObject o k = .ok (outcome, k')) :
    kiDHeaderAcquire o k = .ok (outcome, k') := by
  rw [keWaitForSingleObject] at hok
  split at hok
  · exact absurd ‹_› htype
  all_goals first
    | exact hok
    | cases hok

omit [DecidableEq ο] in
/-- A new thread changes nothing but its own record. -/
theorem newThread_frame (e : SchedEvent τ) (k : Ke τ ο) : (newThread e k).sched = k.sched
    ∧ (newThread e k).waitBlock = k.waitBlock ∧ (newThread e k).header = k.header
    ∧ (newThread e k).Limit = k.Limit ∧ (newThread e k).OwnerThread = k.OwnerThread := by
  cases e with
  | create t p process => exact ⟨rfl, rfl, rfl, rfl, rfl⟩
  | ready _ | schedule | exit _ | block | setPriority _ _ | reap | free _ =>
    exact ⟨rfl, rfl, rfl, rfl, rfl⟩

omit [DecidableEq ο] in
/-- A new thread is one that did not exist. -/
theorem newThread_control {e : SchedEvent τ} {s : SchedMachine τ} (he : e.Enabled s) (k : Ke τ ο) :
    (∀ t ∈ s.live, (newThread e k).control t = k.control t
      ∧ (newThread e k).WaitBlockList t = k.WaitBlockList t)
    ∧ ∀ t ∈ e.liveAfter s.live, t ∉ s.live →
      (newThread e k).control t = .outside ∧ (newThread e k).WaitBlockList t = listInit := by
  cases e with
  | create i p process =>
    constructor
    · intro t ht
      have hne : t ≠ i := ne_of_mem_of_not_mem ht he.1
      simp [newThread, Ke.setControl, hne]
    · intro t ht hnew
      obtain rfl := (Finset.mem_insert.mp ht).resolve_right hnew
      simp [newThread, Ke.setControl]
  | free i => exact ⟨fun _ _ => ⟨rfl, rfl⟩, fun t ht hnew => absurd (Finset.mem_of_mem_erase ht) hnew⟩
  | ready _ | schedule | exit _ | block | setPriority _ _ | reap =>
    exact ⟨fun _ _ => ⟨rfl, rfl⟩, fun t ht hnew => absurd ht hnew⟩

/-- The thread that a step hands a unit to. -/
def KeEvent.handed : KeEvent τ ο → Option τ
  | .releaseSemaphore _ _ handed | .releaseMutant _ _ handed => handed
  | _ => none

omit [DecidableEq τ] in
/-- A step that hands over a unit of one object names the thread. -/
theorem KeEvent.handed_of_op {x : τ} (hop : e.op o = some (.pass x)) : e.handed = some x := by
  cases e with
  | sched e => cases hop
  | wait t i outcome =>
    cases outcome with
    | acquired => simp [KeEvent.op] at hop
    | blocked => simp [KeEvent.op] at hop
  | releaseMutantBegin t i => cases hop
  | releaseSemaphore t i handed | releaseMutant t i handed =>
    cases handed with
    | none => simp [KeEvent.op, releaseOp] at hop
    | some y =>
      have hxy : i = o ∧ y = x := by simpa [KeEvent.op, releaseOp] using hop
      exact congrArg some hxy.2

/-- **Each step performs its operation**: it keeps the invariant of the wait lists, does to each
object what the abstract operation does, and readies the thread that it hands a unit to. -/
theorem KeEvent.runs_follows (h : KeInvariant m.live m.ke w) (hr : e.Runs m k) :
    (∃ w', ∃ h' : KeInvariant (e.liveAfter m.live) k w', Follows h h' fun i => e.op i)
    ∧ ∀ x, e.handed = some x → (k.sched.tcb x).State = .READY := by
  cases e with
  | sched e =>
    obtain ⟨he, hb, sched, hrun, rfl⟩ := hr
    obtain ⟨hsched, hblock, hheader, hlimit, -⟩ := newThread_frame e { m.ke with sched }
    obtain ⟨hold, hnew⟩ := newThread_control he { m.ke with sched }
    have hinv := h.background he hb hrun hsched hblock hheader (fun t ht => (hold t ht).1) (by
      intro t ht
      by_cases hl : t ∈ m.live
      · rw [(hold t hl).2]
        exact h.single t hl
      · rw [(hnew t ht hl).2]
        rfl)
    refine ⟨⟨w, hinv, ⟨fun i => ?_, fun i => ?_, hlimit⟩⟩, by simp [KeEvent.handed]⟩
    · exact congrArg some (handOff_eq h hinv (by rw [hheader]) rfl)
    · rw [hheader]
  | wait t o outcome =>
    obtain ⟨rfl, -, hok⟩ := hr
    refine ⟨?_, by simp [KeEvent.handed]⟩
    by_cases htype : (m.ke.header o).type = .MutantObject
    · obtain ⟨-, hpos, rfl, rfl⟩ := (keWaitForSingleObject_mutant_eq_ok htype).mp hok
      have hinv := h.take hpos
      exact ⟨w, hinv.setOwner _, (follows_take h hpos _ hinv).congr _ rfl rfl⟩
    · exact kiDHeaderAcquire_follows h (keWaitForSingleObject_acquire htype hok)
  | releaseSemaphore t o handed =>
    obtain ⟨-, -, -, old, hok⟩ := hr
    obtain ⟨hpart, hready, -⟩ := kiDHeaderRelease_follows h (keReleaseSemaphore_release hok).2.2
    exact ⟨hpart, hready⟩
  | releaseMutantBegin t o =>
    obtain ⟨rfl, -, -, hok⟩ := hr
    obtain ⟨-, rfl⟩ := keReleaseMutantBegin_eq_ok.mp hok
    have hinv := (h.setOwner (Function.update m.ke.OwnerThread o none)).setControl
      (.inReleaseMutant o)
    exact ⟨⟨w, hinv, ⟨fun i => congrArg some (handOff_eq h hinv rfl rfl), fun _ => rfl, rfl⟩⟩,
      by simp [KeEvent.handed]⟩
  | releaseMutant t o handed =>
    obtain ⟨-, -, -, hok⟩ := hr
    obtain ⟨k₁, hrel, rfl⟩ := keReleaseMutantLocked_release hok
    obtain ⟨⟨w', hinv, hf⟩, hready, -⟩ := kiDHeaderRelease_follows h hrel
    exact ⟨⟨w', hinv.setControl .outside, hf.congr _ rfl rfl⟩, hready⟩

/-! ## Runs -/

omit [DecidableEq τ] in
/-- What the code that sets an object up leaves behind. -/
theorem ObjectSetup.done_spec {setup : ObjectSetup τ} (hd : setup.Done o k) :
    k.header o = ⟨listInit, setup.type, setup.units⟩
    ∧ (∀ count limit, setup = .semaphore count limit → k.Limit o = limit)
    ∧ ∀ owner, setup = .mutant owner → k.OwnerThread o = owner := by
  obtain ⟨k₁, k₂, hcur, hrun, hheader, hlimit, howner⟩ := hd
  rw [hheader, hlimit, howner]
  cases setup with
  | semaphore count limit =>
    obtain ⟨_, -, hret⟩ := kernel_bind_eq_ok.mp hrun
    obtain rfl := Except.ok.inj hret
    refine ⟨by simp [keInitDispatcherHeader, Ke.setHeader, ObjectSetup.type, ObjectSetup.units],
      ?_, by simp⟩
    rintro _ _ ⟨⟩
    simp
  | mutant owner =>
    obtain rfl := Except.ok.inj hrun
    cases owner with
    | none =>
      simp [keInitializeMutant, keInitDispatcherHeader, Ke.setHeader, ObjectSetup.type,
        ObjectSetup.units]
    | some t =>
      have ht := hcur t rfl
      simp [keInitializeMutant, keInitDispatcherHeader, Ke.setHeader, ObjectSetup.type,
        ObjectSetup.units, ht]

/-- Objects that have been set up have empty wait lists. -/
theorem keInvariant_init {setup : ο → ObjectSetup τ} (h : (keSystem setup).init m) :
    KeInvariant m.live m.ke fun _ => [] := by
  obtain ⟨⟨start, tr, hsched⟩, hthreads, hobjects⟩ := h
  have hhead : ∀ o, m.ke.waitHeads o = listInit := by
    intro o
    rw [Ke.waitHeads, (ObjectSetup.done_spec (hobjects o).2).1]
  refine ⟨schedInvariant_run hsched, ⟨fun o => ?_, ?_⟩, ?_, ?_, fun o => ?_⟩
  · rw [hhead o]
    exact isList_listInit
  · intro _ _ _ _ hmem
    cases hmem
  · intro _ _ hmem
    cases hmem
  · intro t ht
    rw [(hthreads t ht).2]
    rfl
  · rw [(ObjectSetup.done_spec (hobjects o).2).1]
    refine ⟨?_, fun _ => rfl⟩
    have hvalid := (hobjects o).1
    revert hvalid
    cases setup o with
    | semaphore count limit => exact fun hvalid => hvalid.1
    | mutant owner =>
      intro _
      cases owner with
      | none => simp [ObjectSetup.units]
      | some t => simp [ObjectSetup.units]

/-- **The invariant along runs**: every object goes through the operations of the run, and keeps
its type and its limit. -/
def KeRunInvariant (setup : ο → ObjectSetup τ) (tr : List (KeLabel τ ο)) (m : KeMachine τ ο) : Prop :=
  ∃ w, ∃ hinv : KeInvariant m.live m.ke w, ∀ o,
    (∃ s₀ : HandOff τ, s₀.units = (setup o).units.toNat ∧ s₀.waiting = []
      ∧ s₀.run (keOps o tr) = some (hinv.handOff o))
    ∧ (m.ke.header o).type = (setup o).type
    ∧ ∀ count limit, setup o = .semaphore count limit → m.ke.Limit o = limit

/-- **Runs keep the invariant.** -/
theorem keSystem_refines {setup : ο → ObjectSetup τ} {tr : List (KeLabel τ ο)}
    (h : (keSystem setup).Run tr m) : KeRunInvariant setup tr m := by
  refine h.invariant ?_ ?_
  · intro m hm
    refine ⟨_, keInvariant_init hm, fun o => ?_⟩
    obtain ⟨hheader, hlimit, -⟩ := ObjectSetup.done_spec (hm.2.2 o).2
    refine ⟨⟨(keInvariant_init hm).handOff o, ?_, rfl, rfl⟩, by rw [hheader], hlimit⟩
    simp [KeInvariant.handOff, hheader]
  · rintro tr m l m' - ⟨w, hinv, hobjects⟩ ⟨k, hr, -, rfl⟩
    obtain ⟨⟨w', hinv', hf⟩, -⟩ := KeEvent.runs_follows hinv hr
    obtain ⟨-, hheader, hlimit⟩ := keResume_frame k
    have hf' := hf.congr hinv'.resume hheader hlimit
    refine ⟨w', hinv'.resume, fun o => ?_⟩
    obtain ⟨⟨s₀, hunits, hempty, hrun⟩, htype, hlim⟩ := hobjects o
    refine ⟨⟨s₀, hunits, hempty, ?_⟩, (hf'.type o).trans htype, fun c l hs => ?_⟩
    · have hafter := HandOff.run_after hrun (hf'.after o)
      cases hop : l.1.op o with
      | none => simpa [keOps, hop] using hafter
      | some op => simpa [keOps, hop] using hafter
    · rw [hf'.limit]
      exact hlim c l hs

/-- The book of units and the order of the queue, for an object of any kind. -/
theorem keSystem_balance {setup : ο → ObjectSetup τ} {tr : List (KeLabel τ ο)}
    (h : (keSystem setup).Run tr m) (o : ο) :
    (setup o).units.toNat + HandOff.gives (keOps o tr)
      = HandOff.grants (keOps o tr) + (m.ke.header o).SignalState.toNat
    ∧ HandOff.joined (keOps o tr) = HandOff.passed (keOps o tr) ++ waitQueue o m.ke := by
  obtain ⟨w, hinv, hobjects⟩ := keSystem_refines h
  obtain ⟨⟨s₀, hunits, hempty, hrun⟩, -⟩ := hobjects o
  have hbalance := HandOff.run_conservation hrun
  have horder := HandOff.run_order hrun
  rw [hempty, List.nil_append] at horder
  rw [hunits] at hbalance
  exact ⟨hbalance, horder.trans (by rw [hinv.waitQueue_eq]; rfl)⟩

/-- Signal states and wait lists, for an object of any kind. -/
theorem keSystem_waiting {setup : ο → ObjectSetup τ} {tr : List (KeLabel τ ο)}
    (h : (keSystem setup).Run tr m) (o : ο) :
    0 ≤ (m.ke.header o).SignalState
    ∧ (0 < (m.ke.header o).SignalState → waitQueue o m.ke = [])
    ∧ (waitQueue o m.ke).Nodup
    ∧ ∀ x ∈ waitQueue o m.ke, x ∈ m.live ∧ (m.ke.sched.tcb x).State = .WAITING
      ∧ ∀ i, i ≠ o → x ∉ waitQueue i m.ke := by
  obtain ⟨w, hinv, -⟩ := keSystem_refines h
  rw [hinv.waitQueue_eq]
  refine ⟨(hinv.signal o).1, (hinv.signal o).2, (hinv.lists.each o).nodup, fun x hx => ?_⟩
  obtain ⟨hl, hs, -⟩ := hinv.waiter o x hx
  refine ⟨hl, hs, fun i hi hmem => ?_⟩
  rw [hinv.waitQueue_eq] at hmem
  exact hinv.lists.disjoint i o hi x hmem hx

/-- **What a step does to a waiting thread**: nothing, or it is the first and is made ready. -/
theorem keSystem_waiter_step {setup : ο → ObjectSetup τ} {tr : List (KeLabel τ ο)}
    (h : (keSystem setup).Run tr m) {l : KeLabel τ ο} (hs : (keSystem setup).step tr m l m')
    {x : τ} (hx : x ∈ waitQueue o m.ke) :
    (x ∈ waitQueue o m'.ke ∧ (m'.ke.sched.tcb x).State = .WAITING ∧ l.1.op o ≠ some (.pass x))
    ∨ (x ∉ waitQueue o m'.ke ∧ (m'.ke.sched.tcb x).State = .READY ∧ l.1.op o = some (.pass x)
      ∧ (waitQueue o m.ke).head? = some x) := by
  obtain ⟨w, hinv, -⟩ := keSystem_refines h
  obtain ⟨k, hr, -, rfl⟩ := hs
  obtain ⟨⟨w', hinv', hf⟩, hready⟩ := KeEvent.runs_follows hinv hr
  rw [hinv.waitQueue_eq] at hx ⊢
  rw [hinv'.resume.waitQueue_eq, (keResume_frame k).1]
  rcases HandOff.after_waiting (hf.after o) hx with ⟨hmem, hop⟩ | ⟨hmem, hop, hhead⟩
  · exact Or.inl ⟨hmem, (hinv'.waiter o x hmem).2.1, hop⟩
  · exact Or.inr ⟨hmem, hready x (KeEvent.handed_of_op hop), hop, hhead⟩

/-! ## Two threads and one object -/

/-- Two threads, of which `false` runs, and one object. -/
def twoThreadsKe (setup : ObjectSetup Bool) : KeMachine Bool Unit where
  ke :=
    { sched := twoThreads.sched
      waitBlock := fun _ => ⟨none, none, .WAIT_TYPE_ANY, ⟨none, none⟩, ⟨none, none⟩⟩
      WaitBlockList := fun _ => listInit
      header := fun _ => ⟨listInit, setup.type, setup.units⟩
      Limit := fun _ => match setup with | .semaphore _ limit => limit | .mutant _ => 0
      OwnerThread := fun _ => setup.owner
      control := fun _ => .outside }
  live := {false, true}

/-- The two threads and their object are a state to start from. -/
theorem twoThreadsKe_init {setup : ObjectSetup Bool} (hv : setup.Valid) (hfree : setup.owner = none) :
    (keSystem fun _ => setup).init (twoThreadsKe setup) := by
  have hrun : setup.run () (twoThreadsKe setup).ke = .ok (twoThreadsKe setup).ke := by
    cases setup with
    | semaphore count limit =>
      have hle : count ≤ limit := hv.2.1
      simp [ObjectSetup.run, keInitializeSemaphore, keInitDispatcherHeader, Ke.setHeader, hle,
        twoThreadsKe, ObjectSetup.type, ObjectSetup.units]
    | mutant owner =>
      obtain rfl : owner = none := hfree
      simp [ObjectSetup.run, keInitializeMutant, keInitDispatcherHeader, Ke.setHeader,
        twoThreadsKe, ObjectSetup.type, ObjectSetup.units, ObjectSetup.owner]
  exact ⟨⟨some true, [], .start twoThreads_init⟩, fun _ _ => ⟨rfl, rfl⟩,
    fun _ => ⟨hv, _, _, by simp [hfree], hrun, rfl, rfl, rfl⟩⟩

end KaushOS
