import KaushOS.Ke.SignalLists

/-! # The termination of another thread (`PsExitThread` in `kern/ps/thread.c`)

`PsExitThread` is meant to take the thread out of whatever it is linked into, to mark it, and to release the
threads that wait for it. A ready thread is to be taken off its queue by `KiStandbyThread`, which never
succeeds; a waiting one stays on its wait list.

* **`psExitOther`** — the routine, up to the drop of its reference.
* **`ThreadTerminated`** — what it should leave behind.
* **`dispatcherSystem`** — threads with dispatcher objects of all kinds, and terminations.
* **`psExitOther_initialized`** — a thread that is linked nowhere is terminated in good order.
* **`exit_other_iff`** — no other thread is. -/

namespace KaushOS

open CircularList Transition

variable {τ ο : Type} [DecidableEq τ] [DecidableEq ο]

/-! ## The routine -/

/-- `PsExitThread` of another thread pulls it out of its queue. -/
def standbyReady (t : τ) (k : Ke τ ο) : Kernel (Ke τ ο) :=
  if (k.sched.tcb t).State = .READY then do
    let sched ← kiStandbyThread t k.sched
    return { k with sched }
  else .ok k

/-- Store to the state of a thread. -/
def Ke.setState (k : Ke τ ο) (t : τ) (state : THREAD_STATE) : Ke τ ο :=
  { k with sched := k.sched.modify t fun tcb => { tcb with State := state } }

/-- **`PsExitThread(Thread)`** of another thread, up to `ObDereferenceObject`. `Header` is the member of
that name of each thread. -/
def psExitOther (Header : τ → ο) (t : τ) (k : Ke τ ο) : Kernel (Ke τ ο) := do
  assert ((k.sched.tcb t).State ≠ .RUNNING) "Thread->tcb.State != THREAD_STATE_RUNNING"
  let k ← standbyReady t k
  if (k.sched.tcb t).State ≠ .TERMINATED then
    keReleaseNotificationDHeader (Header t) (k.setState t .TERMINATED)
  else return k

/-- **The thread has been terminated in good order**: it is on no queue and on no wait list, all threads
that waited for it are ready, behind those that were ready before, and nothing else has changed for the
other threads. -/
structure ThreadTerminated (Header : τ → ο) (t : τ) (k k' : Ke τ ο) : Prop where
  state : (k'.sched.tcb t).State = .TERMINATED
  notReady : ∀ p, t ∉ schedQueue p k'.sched
  notWaiting : ∀ o, t ∉ waitQueue o k'
  woken : ∀ x ∈ waitQueue (Header t) k, (k'.sched.tcb x).State = .READY
  released : waitQueue (Header t) k' = []
  others : ∀ x, x ≠ t → x ∉ waitQueue (Header t) k →
    (k'.sched.tcb x).State = (k.sched.tcb x).State
  ready : ∀ p, schedQueue p k'.sched = (schedQueue p k.sched).erase t
    ++ (waitQueue (Header t) k).filter fun x => (k.sched.tcb x).Priority = p
  exited : schedExited k'.sched = schedExited k.sched
  waiting : ∀ o, o ≠ Header t → waitQueue o k' = (waitQueue o k).erase t

/-- **The states in which a thread may be found** by another one that terminates it. -/
def Terminable (t : τ) (k : Ke τ ο) : Prop :=
  (k.sched.tcb t).State = .INITIALIZED ∨ (k.sched.tcb t).State = .READY
    ∨ (k.sched.tcb t).State = .WAITING ∧ ∃ o, t ∈ waitQueue o k

/-! ## Threads and objects -/

/-- **The steps of the current thread**, on objects of all kinds. -/
inductive DispatcherEvent (τ ο : Type)
  /-- A step of `Signals.lean`. -/
  | signal (e : SignalEvent τ ο)
  /-- `KeReleaseMutant` in front of its locked section. -/
  | releaseMutantBegin (o : ο)
  /-- The locked section of `KeReleaseMutant`. -/
  | releaseMutant (o : ο)
  /-- `PsExitThread` of another thread, up to the drop of its reference. -/
  | exitThread (t : τ)
  deriving DecidableEq

/-- **Which steps the current thread takes.** It is in one routine at a time, and may call each for any
object: an assertion fails where the kind is wrong. -/
def DispatcherEvent.Enabled (m : SignalMachine τ ο) : DispatcherEvent τ ο → Prop
  | .signal (.sched e) => e.Enabled ⟨m.ke.sched, m.live⟩ ∧ e.Background
  | .releaseMutant o => m.ke.control m.current = .inReleaseMutant o
  | .exitThread t => m.ke.control m.current = .outside ∧ t ≠ m.current
  | .signal _ | .releaseMutantBegin _ => m.ke.control m.current = .outside

/-- **A step.** -/
def DispatcherEvent.run (Header : τ → ο) (m : SignalMachine τ ο) :
    DispatcherEvent τ ο → Kernel (SignalMachine τ ο)
  | .signal e => e.run m
  | .releaseMutantBegin o => do
    let ke ← keReleaseMutantBegin o m.ke
    return { m with ke }
  | .releaseMutant o => do
    let (_, ke) ← keReleaseMutantLocked o m.ke
    return { m with ke }
  | .exitThread t => do
    let ke ← psExitOther Header t m.ke
    return { m with ke }

/-- How an object of any kind is set up. -/
inductive DispatcherSetup (τ : Type)
  | signal (setup : SignalSetup)
  | mutant (owner : Option τ)
  deriving DecidableEq

/-- Object `o` is as its set-up leaves it. -/
def DispatcherSetup.Done (o : ο) (k : Ke τ ο) : DispatcherSetup τ → Prop
  | .signal setup => setup.Done o k
  | .mutant owner => (ObjectSetup.mutant owner).Done o k

/-- **Threads with dispatcher objects of all kinds.** It starts in any state that the scheduler alone can
reach, with every object just set up and no thread in the routines of `wait.c`. A label records the step
and the state it was taken in. -/
def dispatcherSystem (Header : τ → ο) (setup : ο → DispatcherSetup τ) :
    System (DispatcherEvent τ ο × SignalMachine τ ο) (SignalMachine τ ο) where
  init m := (∃ start tr, (schedSystem start).Run tr ⟨m.ke.sched, m.live⟩)
    ∧ (∀ t ∈ m.live, m.ke.control t = .outside ∧ m.ke.WaitBlockList t = listInit)
    ∧ (∀ t, m.releasing t = none) ∧ ∀ o, (setup o).Done o m.ke
  step _ m l m' := l.2 = m ∧ l.1.Enabled m ∧ l.1.run Header m = .ok m'

/-- **Only threads that are linked nowhere have been terminated** by others. -/
def ExitsInitialized (tr : List (DispatcherEvent τ ο × SignalMachine τ ο)) : Prop :=
  ∀ l ∈ tr, ∀ t, l.1 = .exitThread t → (l.2.ke.sched.tcb t).State = .INITIALIZED

/-! ## Waking several threads -/

namespace Dispatcher

variable {a : Dispatcher τ} {l : List τ}

/-- Queueing threads keeps the priorities, the exited ones and the processor. -/
theorem foldl_makeReady_same (l : List τ) (a : Dispatcher τ) :
    (l.foldl makeReady a).priority = a.priority ∧ (l.foldl makeReady a).exited = a.exited
      ∧ (l.foldl makeReady a).current = a.current := by
  induction l generalizing a with
  | nil => exact ⟨rfl, rfl, rfl⟩
  | cons x l ih => exact ih (a.makeReady x)

/-- The states after threads are queued. -/
theorem foldl_makeReady_state (l : List τ) (a : Dispatcher τ) (i : τ) :
    (l.foldl makeReady a).state i = if i ∈ l then .READY else a.state i := by
  induction l generalizing a with
  | nil => simp
  | cons x l ih =>
    rw [List.foldl_cons, ih, makeReady_state]
    by_cases hl : i ∈ l
    · simp [hl]
    · simp [hl]

/-- **The queues after threads are queued**: they come behind, in their order. -/
theorem foldl_makeReady_ready (l : List τ) (a : Dispatcher τ) (p : Nat) :
    (l.foldl makeReady a).ready p = a.ready p ++ l.filter fun x => a.priority x = p := by
  induction l generalizing a with
  | nil => simp
  | cons x l ih =>
    rw [List.foldl_cons, ih, makeReady_priority]
    by_cases hx : a.priority x = p
    · subst hx
      simp [makeReady, setReady]
    · have hpx : p ≠ a.priority x := fun h => hx h.symm
      simp [makeReady, setReady, hx, hpx]

end Dispatcher

/-! ## A thread that is linked nowhere -/

section Initialized

variable {live : Finset τ} {k k' : Ke τ ο} {w : ο → List τ} {Header : τ → ο} {t : τ}

omit [DecidableEq ο] in
/-- A thread that is neither ready nor waiting is on no queue and no wait list. -/
theorem SignalLists.unlinked (h : SignalLists live k w) (hstate : (k.sched.tcb t).State ≠ .READY)
    (hwaiting : (k.sched.tcb t).State ≠ .WAITING) :
    (∀ p, t ∉ schedQueue p k.sched) ∧ ∀ o, t ∉ w o :=
  ⟨fun p ht => hstate (h.counted.sched.queued.ready_state p t ht).2.1,
    fun o ht => hwaiting (h.counted.waiter o t ht).2.1⟩

omit [DecidableEq ο] in
/-- Storing a state, in the abstract scheduler. -/
theorem setState_dispatcher (h : SignalLists live k w) (t : τ) (x : THREAD_STATE) :
    (k.setState t x).sched.dispatcher = k.sched.dispatcher.setState t x :=
  (h.counted.sched.rep.setState t x).eq_dispatcher.symm

omit [DecidableEq ο] in
/-- **Marking an initialised thread** keeps the invariant. -/
theorem SignalLists.terminate (h : SignalLists live k w)
    (hstate : (k.sched.tcb t).State = .INITIALIZED) :
    SignalLists live (k.setState t .TERMINATED) w := by
  have hinv : SchedInvariant ⟨k.sched, live⟩ k.sched.dispatcher := h.counted.sched
  have hne : t ≠ k.sched.CurrentThread := by
    rintro rfl
    exact THREAD_STATE.noConfusion (hstate.symm.trans hinv.current_state)
  have hdispatcher := setState_dispatcher h t .TERMINATED
  have hstate' : k.sched.dispatcher.state t = .INITIALIZED := hstate
  have hrunning : (k.sched.dispatcher.setState t .TERMINATED).OneRunning live := by
    refine ⟨hinv.running.1, fun i hi => ?_⟩
    by_cases hit : i = t
    · subst hit
      rw [Dispatcher.setState_self]
      exact ⟨fun heq => (by cases heq), fun heq => absurd heq hne⟩
    · rw [Dispatcher.setState_of_ne _ _ hit]
      exact hinv.running.2 i hi
  refine ⟨⟨?_, h.counted.lists, fun o i hi => ?_, h.counted.single, h.counted.signal⟩, h.idle⟩
  · show SchedInvariant ⟨(k.setState t .TERMINATED).sched, live⟩ (k.setState t .TERMINATED).sched.dispatcher
    rw [hdispatcher]
    refine ⟨hinv.rep.setState t .TERMINATED, hinv.queued.setState ?_ ?_ (by decide), hrunning⟩
    · rw [hstate']
      exact THREAD_STATE.noConfusion
    · rw [hstate']
      exact THREAD_STATE.noConfusion
  · obtain ⟨hlive, hwaiting, hrest⟩ := h.counted.waiter o i hi
    have hit : i ≠ t := by
      rintro rfl
      exact THREAD_STATE.noConfusion (hstate.symm.trans hwaiting)
    refine ⟨hlive, ?_, hrest⟩
    show ((k.sched.modify t fun tcb => { tcb with State := .TERMINATED }).tcb i).State = _
    rw [Sched.modify_of_ne _ _ _ hit]
    exact hwaiting

/-- **An initialised thread is terminated in good order**, and the invariant is kept. -/
theorem psExitOther_initialized (h : SignalLists live k w)
    (hstate : (k.sched.tcb t).State = .INITIALIZED)
    (hsignal : (k.header (Header t)).SignalState < MAX_DISPATCH_SIGNAL_STATE) :
    ∃ k', psExitOther Header t k = .ok k' ∧ SignalLists live k' (Function.update w (Header t) [])
      ∧ ThreadTerminated Header t k k' := by
  have hmark := h.terminate hstate
  obtain ⟨k', hrelease, hlists, hwoken, -, -, hdispatcher⟩ :=
    kiDHeaderReleaseAll_spec (o := Header t) hmark hsignal
  rw [setState_dispatcher h] at hdispatcher
  obtain ⟨hpriority, hexited, -⟩ :=
    Dispatcher.foldl_makeReady_same (w (Header t)) (k.sched.dispatcher.setState t .TERMINATED)
  obtain ⟨hqueues, hwaits⟩ := h.unlinked (t := t) (by rw [hstate]; decide) (by rw [hstate]; decide)
  have hafter : ∀ x, (k'.sched.tcb x).State = if x ∈ w (Header t) then .READY
      else (k.sched.dispatcher.setState t .TERMINATED).state x := by
    intro x
    have hx := congrArg (fun a : Dispatcher τ => a.state x) hdispatcher
    exact hx.trans (Dispatcher.foldl_makeReady_state _ _ x)
  have hqueue : ∀ p, schedQueue p k'.sched = schedQueue p k.sched
      ++ (w (Header t)).filter fun x => (k.sched.tcb x).Priority = p := by
    intro p
    have hp := congrArg (fun a : Dispatcher τ => a.ready p) hdispatcher
    exact hp.trans (Dispatcher.foldl_makeReady_ready _ _ p)
  have hmine : (k'.sched.tcb t).State = .TERMINATED := by
    rw [hafter, if_neg (hwaits _), Dispatcher.setState_self]
  have hunlinked := hlists.unlinked (t := t) (by rw [hmine]; decide) (by rw [hmine]; decide)
  refine ⟨k', ?_, hlists, hmine, hunlinked.1, fun o => ?_, ?_, ?_, fun x hx hxw => ?_, fun p => ?_, ?_,
    fun o ho => ?_⟩
  · have hrunning : (k.sched.tcb t).State ≠ .RUNNING := by rw [hstate]; decide
    have hready : (k.sched.tcb t).State ≠ .READY := by rw [hstate]; decide
    have hterminated : (k.sched.tcb t).State ≠ .TERMINATED := by rw [hstate]; decide
    rw [psExitOther, assert_of_true hrunning, kernel_ok_bind, standbyReady, if_neg hready,
      kernel_ok_bind, if_pos hterminated]
    exact hrelease
  · rw [hlists.waitQueue_eq]
    exact hunlinked.2 o
  · rw [h.waitQueue_eq]
    exact hwoken
  · rw [hlists.waitQueue_eq, Function.update_self]
  · rw [h.waitQueue_eq] at hxw
    rw [hafter, if_neg hxw, Dispatcher.setState_of_ne _ _ hx]
    rfl
  · rw [hqueue, h.waitQueue_eq, List.erase_of_not_mem (hqueues p)]
  · exact (congrArg Dispatcher.exited hdispatcher).trans hexited
  · rw [hlists.waitQueue_eq, h.waitQueue_eq, Function.update_of_ne ho,
      List.erase_of_not_mem (hwaits o)]

end Initialized

/-! ## A thread that waits -/

section Waiting

variable {live : Finset τ} {k k' : Ke τ ο} {w : ο → List τ} {Header : τ → ο} {t : τ} {o i : ο}

/-- **Releasing the waiters of an object leaves the other wait lists alone**, whatever the states of the
threads are. -/
theorem releaseAllLoop_waitQueue {n : Nat}
    (hlists : IsFamily (waitLinks τ ο) Set.univ k.waitBlock k.waitHeads w)
    (hblocks : ∀ x ∈ w o, (k.waitBlock x).Thread = some x ∧ listEmpty (k.WaitBlockList x) = true)
    (hrun : releaseAllLoop o n k = .ok k') (hi : i ≠ o) : waitQueue i k' = w i := by
  have hdone : waitQueue i k = w i := (hlists.each i).listElements_eq
  -- on the number of rounds: each takes one block off the list of `o`
  induction n generalizing k w with
  | zero =>
    rw [releaseAllLoop] at hrun
    split at hrun
    · cases hrun
      exact hdone
    · cases hrun
  | succ n ih =>
    rw [releaseAllLoop] at hrun
    split at hrun
    · cases hrun
      exact hdone
    · rename_i hempty
      obtain ⟨x, rest, hw⟩ := List.exists_cons_of_ne_nil fun hnil =>
        hempty ((hlists.each o).listEmpty_iff.mpr hnil)
      obtain ⟨head, blocks, hremove, hlists', hedits⟩ :=
        hlists.removeHead (EntryField.links_lawful _) o
      rw [hw, List.head?_cons] at hremove
      rw [hw, List.tail_cons] at hlists'
      have hkept := fun y => waitBlock_of_edits hedits y
      obtain ⟨hthread, hsingle⟩ := hblocks x (by rw [hw]; exact List.mem_cons_self)
      have hremove' : listRemoveHead (waitLinks τ ο) (k.header o).WaitListHead k.waitBlock
          = .ok (some x, head, blocks) := hremove
      have hthread' : ((k.setWaitList o head blocks).waitBlock x).Thread = some x :=
        (hkept x).1.trans hthread
      have hsingle' : listEmpty ((k.setWaitList o head blocks).WaitBlockList x) = true := hsingle
      rw [hremove', kernel_ok_bind] at hrun
      obtain ⟨block, hblock, hrun⟩ := kernel_bind_eq_ok.mp hrun
      obtain rfl : x = block := Except.ok.inj hblock
      obtain ⟨_, -, hrun⟩ := kernel_bind_eq_ok.mp hrun
      simp only [hthread', deref_some, kernel_ok_bind, hsingle', if_true, true_or] at hrun
      obtain ⟨sched, -, hrun⟩ := kernel_bind_eq_ok.mp hrun
      have hrest : waitQueue i k' = Function.update w o rest i := by
        refine ih (k := { k.setWaitList o head blocks with sched }) ?_ (fun y hy => ?_) hrun ?_
        · have hheads : ({ k.setWaitList o head blocks with sched } : Ke τ ο).waitHeads
              = Function.update k.waitHeads o head := waitHeads_setWaitList k o head blocks
          rw [hheads]
          exact hlists'
        · rw [Function.update_self] at hy
          obtain ⟨hthread, hsingle⟩ := hblocks y (by rw [hw]; exact List.mem_cons_of_mem x hy)
          exact ⟨(hkept y).1.trans hthread, hsingle⟩
        · have hheads : ({ k.setWaitList o head blocks with sched } : Ke τ ο).waitHeads
              = Function.update k.waitHeads o head := waitHeads_setWaitList k o head blocks
          rw [← hheads] at hlists'
          exact (hlists'.each i).listElements_eq
      rw [hrest, Function.update_of_ne hi]

/-- **A thread that waits is not terminated in good order**: it stays on its wait list. -/
theorem psExitOther_waiting (h : SignalLists live k w)
    (hstate : (k.sched.tcb t).State = .WAITING) (hi : t ∈ w i)
    (hrun : psExitOther Header t k = .ok k') : ¬ ThreadTerminated Header t k k' := by
  intro hdone
  have hready : (k.sched.tcb t).State ≠ .READY := by rw [hstate]; decide
  have hterminated : (k.sched.tcb t).State ≠ .TERMINATED := by rw [hstate]; decide
  by_cases ho : i = Header t
  · -- who waits for itself would be made ready
    have hwoken := hdone.woken t (by rw [h.waitQueue_eq, ← ho]; exact hi)
    rw [hdone.state] at hwoken
    cases hwoken
  · obtain ⟨_, -, hrun⟩ := kernel_bind_eq_ok.mp hrun
    rw [standbyReady, if_neg hready, kernel_ok_bind, if_pos hterminated] at hrun
    obtain ⟨_, -, hrun⟩ := kernel_bind_eq_ok.mp hrun
    obtain ⟨_, -, hrun⟩ := kernel_bind_eq_ok.mp hrun
    obtain ⟨k₁, hloop, hrun⟩ := kernel_bind_eq_ok.mp hrun
    cases hrun
    have hqueue : waitQueue i k₁ = w i :=
      releaseAllLoop_waitQueue (k := k.setState t .TERMINATED) h.counted.lists (fun x hx => by
        obtain ⟨hlive, -, hthread, -⟩ := h.counted.waiter _ x hx
        exact ⟨hthread, h.counted.single x hlive⟩) hloop ho
    refine hdone.notWaiting i ?_
    have hsame : waitQueue i (k₁.setSignal (Header t) 1) = waitQueue i k₁ := by
      simp [waitQueue, Ke.setSignal, Ke.setHeader, ho]
    rw [hsame, hqueue]
    exact hi

omit [DecidableEq ο] in
/-- **A thread that is ready is not terminated**: the check of `KiStandbyThread` fails. -/
theorem standbyReady_never (hstate : (k.sched.tcb t).State = .READY) :
    standbyReady t k ≠ .ok k' := by
  intro hrun
  rw [standbyReady, if_pos hstate] at hrun
  obtain ⟨sched, hstandby, -⟩ := kernel_bind_eq_ok.mp hrun
  simp [kiStandbyThread, hstate] at hstandby
  cases hstandby

/-- The signal state of an initialised thread has been checked. -/
theorem psExitOther_signal (hstate : (k.sched.tcb t).State = .INITIALIZED)
    (hrun : psExitOther Header t k = .ok k') :
    (k.header (Header t)).SignalState < MAX_DISPATCH_SIGNAL_STATE := by
  have hready : (k.sched.tcb t).State ≠ .READY := by rw [hstate]; decide
  have hterminated : (k.sched.tcb t).State ≠ .TERMINATED := by rw [hstate]; decide
  obtain ⟨_, -, hrun⟩ := kernel_bind_eq_ok.mp hrun
  rw [standbyReady, if_neg hready, kernel_ok_bind, if_pos hterminated] at hrun
  obtain ⟨_, hsignal, -⟩ := kernel_bind_eq_ok.mp hrun
  exact assert_eq_ok.mp hsignal

/-- **Which threads are terminated in good order.** -/
theorem psExitOther_iff (h : SignalLists live k w) (ht : Terminable t k) :
    (∃ k', psExitOther Header t k = .ok k' ∧ ThreadTerminated Header t k k')
      ↔ (k.sched.tcb t).State = .INITIALIZED
        ∧ (k.header (Header t)).SignalState < MAX_DISPATCH_SIGNAL_STATE := by
  constructor
  · rintro ⟨k', hrun, hdone⟩
    rcases ht with hstate | hstate | ⟨hstate, i, hi⟩
    · exact ⟨hstate, psExitOther_signal hstate hrun⟩
    · obtain ⟨_, -, hrun⟩ := kernel_bind_eq_ok.mp hrun
      obtain ⟨k₁, hstandby, -⟩ := kernel_bind_eq_ok.mp hrun
      exact absurd hstandby (standbyReady_never hstate)
    · rw [h.waitQueue_eq] at hi
      exact absurd hdone (psExitOther_waiting h hstate hi hrun)
  · rintro ⟨hstate, hsignal⟩
    obtain ⟨k', hrun, -, hdone⟩ := psExitOther_initialized h hstate hsignal
    exact ⟨k', hrun, hdone⟩

end Waiting

/-! ## Runs -/

section Runs

variable {Header : τ → ο} {setup : ο → DispatcherSetup τ} {m m' : SignalMachine τ ο}
  {e : DispatcherEvent τ ο} {tr : List (DispatcherEvent τ ο × SignalMachine τ ο)} {t : τ}

omit [DecidableEq τ] in
/-- The code that sets an object up leaves its wait list empty. -/
theorem DispatcherSetup.done_empty {o : ο} {k : Ke τ ο} {setup : DispatcherSetup τ}
    (h : setup.Done o k) : (k.header o).WaitListHead = listInit := by
  cases setup with
  | signal setup => rw [SignalSetup.done_header h]
  | mutant owner =>
    obtain ⟨k₁, k₂, -, hrun, hheader, -⟩ := h
    cases hrun
    rw [hheader]
    unfold keInitializeMutant
    split
    · simp [keInitDispatcherHeader, Ke.setHeader]
    · simp [keInitDispatcherHeader, Ke.setHeader]

/-- **Every step keeps the invariant of the wait lists**, if it terminates nobody but an initialised
thread. -/
theorem DispatcherEvent.run_lists (h : SignalLists m.live m.ke (waitQueues m.ke)) (hen : e.Enabled m)
    (hexit : ∀ t, e = .exitThread t → (m.ke.sched.tcb t).State = .INITIALIZED)
    (hrun : e.run Header m = .ok m') : SignalLists m'.live m'.ke (waitQueues m'.ke) := by
  cases e with
  | signal e =>
    have hscheduled : e.Scheduled m := by
      cases e with
      | sched e => exact hen
      | wait _ | check _ | release _ | setEvent _ | resetEvent _ | clearEvent _
      | releaseNotification _ => trivial
    exact (SignalEvent.run_lists h hscheduled hrun).1
  | releaseMutantBegin o =>
    obtain ⟨k, hbegin, hrun⟩ := kernel_bind_eq_ok.mp hrun
    cases hrun
    obtain ⟨_, -, hbegin⟩ := kernel_bind_eq_ok.mp hbegin
    cases hbegin
    have hlists := (h.setOwner (Function.update m.ke.OwnerThread o none)).setControl (.inReleaseMutant o)
    rwa [← hlists.queues_eq] at hlists
  | releaseMutant o =>
    obtain ⟨⟨handed, k⟩, hlocked, hrun⟩ := kernel_bind_eq_ok.mp hrun
    cases hrun
    obtain ⟨⟨handed', k₁⟩, hrelease, hlocked⟩ := kernel_bind_eq_ok.mp hlocked
    cases hlocked
    obtain ⟨hinv, -, -, -⟩ := kiDHeaderRelease_moves h hrelease
    have hlists := hinv.setControl .outside
    rwa [← hlists.queues_eq] at hlists
  | exitThread t =>
    obtain ⟨k, hexits, hrun⟩ := kernel_bind_eq_ok.mp hrun
    cases hrun
    have hstate := hexit t rfl
    obtain ⟨k', hexits', hlists, -⟩ :=
      psExitOther_initialized h hstate (psExitOther_signal hstate hexits)
    obtain rfl := Except.ok.inj (hexits'.symm.trans hexits)
    rwa [← hlists.queues_eq] at hlists

/-- **The wait lists in every run** that terminates nobody but initialised threads. -/
theorem dispatcherSystem_lists (h : (dispatcherSystem Header setup).Run tr m)
    (hexits : ExitsInitialized tr) : SignalLists m.live m.ke (waitQueues m.ke) := by
  refine h.invariant (I := fun tr m =>
    ExitsInitialized tr → SignalLists m.live m.ke (waitQueues m.ke)) ?_ ?_ hexits
  · rintro m ⟨⟨start, sched, hsched⟩, hthreads, -, hdone⟩ -
    have hlists : SignalLists m.live m.ke fun _ => [] :=
      .start hsched (fun t ht => (hthreads t ht).2) fun o =>
        DispatcherSetup.done_empty (hdone o)
    rwa [← hlists.queues_eq] at hlists
  · rintro tr m ⟨e, m₀⟩ m' - hinv ⟨hm, hen, hrun⟩ hexits
    obtain rfl : m₀ = m := hm
    refine DispatcherEvent.run_lists (hinv fun l hl => hexits l (List.mem_cons_of_mem _ hl)) hen ?_ hrun
    exact fun t he => hexits _ List.mem_cons_self t he

end Runs

/-! ## Two threads -/

/-- `false` runs, and `true` is being created. -/
def creatingThread : SignalMachine Bool Bool where
  ke :=
    { sched :=
        { tcb := fun t =>
            { ThreadProcess := 0, Quantum := 3
              State := if t then .INITIALIZED else .RUNNING
              Priority := 3
              Scheduler_link := ⟨some t, some t⟩ }
          process := fun _ => ⟨0, 3⟩
          CurrentThread := false
          Scheduler_list := fun _ => listInit
          ExitThreadList := listInit
          PageDirectory := 0 }
      waitBlock := fun _ => ⟨none, none, .WAIT_TYPE_ANY, ⟨none, none⟩, ⟨none, none⟩⟩
      WaitBlockList := fun _ => listInit
      header := fun _ => ⟨listInit, .ThreadObject, 0⟩
      Limit := fun _ => 0
      OwnerThread := fun _ => none
      control := fun _ => .outside }
  live := {false}
  releasing := fun _ => none

/-- It is a state to start from. -/
theorem creatingThread_run :
    (dispatcherSystem id fun _ => .signal (.thread .ThreadObject 0)).Run [] creatingThread := by
  refine .start ⟨⟨none, [], .start ?_⟩, fun _ _ => ⟨rfl, rfl⟩, fun _ => rfl, fun o => ?_⟩
  · refine ⟨by decide, by decide, by decide, fun t ht => (by cases ht), by decide, fun p => ?_, rfl⟩
    exact isList_listInit
  · refine ⟨creatingThread.ke, _, rfl, ?_, fun _ _ heq => (by cases heq)⟩
    simp [keInitDispatcherHeader, Ke.setHeader, creatingThread]

/-- `false` runs, and `true` is ready. -/
def readyThread : SignalMachine Bool Bool :=
  { creatingThread with
    ke := { creatingThread.ke with sched := equalThreads.sched }
    live := equalThreads.live }

end KaushOS
