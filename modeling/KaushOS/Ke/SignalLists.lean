import KaushOS.Ke.Signals

/-! # Signals and wait lists

The invariant of `WaitLists.lean` along runs with events and notifications.

* **`SignalLists`** — the invariant, whatever the signal states that objects start with.
* **`kiDHeaderReleaseAll_spec`** — all waiters become ready, and the object is signalled.
* **`SignalEvent.Moves`** — what a step does to the wait lists: who joins, who is woken.
* **`signalSystem_invariant`** — the invariant holds in every run. -/

namespace KaushOS

open CircularList Transition

variable {τ ο : Type} [DecidableEq τ] [DecidableEq ο]

/-! ## The invariant -/

/-- The state with the signal states below 0 raised to 0: the code tells them apart only to fail. -/
def Ke.clamp (k : Ke τ ο) : Ke τ ο :=
  { k with header := fun o => { k.header o with SignalState := max 0 (k.header o).SignalState } }

/-- **The invariant of the wait lists, whatever the signal states.** A semaphore may start with a
count below 0, and a thread with whatever its creation finds on the stack. -/
structure SignalLists (live : Finset τ) (k : Ke τ ο) (w : ο → List τ) : Prop where
  counted : KeInvariant live k.clamp w
  idle : ∀ o, (k.header o).SignalState ≠ 0 → w o = []

section Lists

variable {live : Finset τ} {k k' : Ke τ ο} {w : ο → List τ} {o : ο}

omit [DecidableEq τ] in
/-- A store to a signal state, and the same store to the raised state. -/
theorem clamp_setSignal (k : Ke τ ο) (o : ο) (x : Int) :
    (k.setSignal o x).clamp = k.clamp.setSignal o (max 0 x) := by
  unfold Ke.clamp Ke.setSignal Ke.setHeader
  congr 1
  funext i
  by_cases hi : i = o
  · subst hi
    simp
  · simp [hi]

omit [DecidableEq τ] in
/-- A store to a wait list, and the same store to the raised state. -/
theorem clamp_setWaitList (k : Ke τ ο) (o : ο) (head : ListHead τ)
    (blocks : τ → KWAIT_BLOCK τ ο) :
    (k.setWaitList o head blocks).clamp = k.clamp.setWaitList o head blocks := by
  unfold Ke.clamp Ke.setWaitList Ke.setHeader
  congr 1
  funext i
  by_cases hi : i = o
  · subst hi
    simp
  · simp [hi]

omit [DecidableEq ο] in
/-- The sequence of a wait list is the one that `LIST_FOREACH` visits. -/
theorem SignalLists.waitQueue_eq (h : SignalLists live k w) (o : ο) : waitQueue o k = w o :=
  h.counted.waitQueue_eq o

omit [DecidableEq ο] in
/-- All sequences at once. -/
theorem SignalLists.queues_eq (h : SignalLists live k w) : (fun o => waitQueue o k) = w := by
  funext o
  exact h.waitQueue_eq o

omit [DecidableEq ο] in
/-- A wait list is empty exactly when its sequence is. -/
theorem SignalLists.listEmpty_iff (h : SignalLists live k w) :
    listEmpty (k.header o).WaitListHead = true ↔ w o = [] :=
  (h.counted.lists.each o).listEmpty_iff

omit [DecidableEq ο] in
/-- An object with waiters is not signalled. -/
theorem SignalLists.signal_eq_zero (h : SignalLists live k w) (hw : w o ≠ []) :
    (k.header o).SignalState = 0 := by
  by_contra hne
  exact hw (h.idle o hne)

/-- Storing a signal state, zero when there are waiters. -/
theorem SignalLists.setSignal (h : SignalLists live k w) {x : Int} (hw : x ≠ 0 → w o = []) :
    SignalLists live (k.setSignal o x) w := by
  refine ⟨?_, fun i hi => ?_⟩
  · rw [clamp_setSignal]
    exact h.counted.setSignal (le_max_left 0 x) fun hpos => hw (by omega)
  · rw [signal_setSignal] at hi
    by_cases hio : i = o
    · rw [if_pos hio] at hi
      rw [hio]
      exact hw hi
    · rw [if_neg hio] at hi
      exact h.idle i hi

/-- Clearing a signal state. -/
theorem SignalLists.clear (h : SignalLists live k w) : SignalLists live (k.setSignal o 0) w :=
  h.setSignal fun hne => absurd rfl hne

/-- Taking a unit. -/
theorem SignalLists.take (h : SignalLists live k w) (hs : 0 < (k.header o).SignalState) :
    SignalLists live (k.setSignal o ((k.header o).SignalState - 1)) w :=
  h.setSignal fun _ => h.idle o (ne_of_gt hs)

omit [DecidableEq ο] in
/-- Recording what the running thread is in the middle of. -/
theorem SignalLists.setControl (h : SignalLists live k w) (c : KeControl ο) :
    SignalLists live (k.setControl k.sched.CurrentThread c) w :=
  ⟨h.counted.setControl c, h.idle⟩

omit [DecidableEq ο] in
/-- Storing an owner. -/
theorem SignalLists.setOwner (h : SignalLists live k w) (owner : ο → Option τ) :
    SignalLists live { k with OwnerThread := owner } w :=
  ⟨h.counted.setOwner owner, h.idle⟩

/-- The resumption of a thread keeps the invariant. -/
theorem SignalLists.resume (h : SignalLists live k w) : SignalLists live (keResume k) w := by
  rcases keResume_cases k with ⟨heq, -⟩ | ⟨i, owner, -, heq, -⟩
  · rw [heq]
    exact h
  · rw [heq]
    exact (h.setControl .outside).setOwner owner

omit [DecidableEq ο] in
/-- **A background step of the scheduler leaves the wait lists alone.** -/
theorem SignalLists.background (h : SignalLists live k w) {e : SchedEvent τ} {sched : Sched τ}
    (he : e.Enabled ⟨k.sched, live⟩) (hb : e.Background)
    (hstep : schedStep e k.sched = .ok sched) :
    SignalLists (e.liveAfter live) (newThread e { k with sched }) w := by
  obtain ⟨hsched, hblock, hheader, -, -⟩ := newThread_frame e { k with sched }
  obtain ⟨hold, hnew⟩ := newThread_control he { k with sched }
  have hheader' : (newThread e { k with sched }).clamp.header = k.clamp.header := by
    simp only [Ke.clamp, hheader]
  refine ⟨h.counted.background he hb hstep hsched hblock hheader' (fun t ht => (hold t ht).1) ?_,
    fun o => ?_⟩
  · intro t ht
    show listEmpty ((newThread e { k with sched }).WaitBlockList t) = true
    by_cases hl : t ∈ live
    · rw [(hold t hl).2]
      exact h.counted.single t hl
    · rw [(hnew t ht hl).2]
      rfl
  · rw [hheader]
    exact h.idle o

omit [DecidableEq ο] in
/-- **A state to start from**: one that the scheduler alone can reach, with empty wait lists. -/
theorem SignalLists.start {start : Option τ} {tr : List (SchedEvent τ × SchedMachine τ)}
    (hsched : (schedSystem start).Run tr ⟨k.sched, live⟩)
    (hthreads : ∀ t ∈ live, k.WaitBlockList t = listInit)
    (hheads : ∀ o, (k.header o).WaitListHead = listInit) : SignalLists live k fun _ => [] := by
  have hhead : ∀ o, k.clamp.waitHeads o = listInit := hheads
  refine ⟨⟨schedInvariant_run hsched, ⟨fun o => ?_, ?_⟩, ?_, ?_, fun o => ⟨?_, fun _ => rfl⟩⟩,
    fun _ _ => rfl⟩
  · rw [hhead o]
    exact isList_listInit
  · intro _ _ _ _ hmem
    cases hmem
  · intro _ _ hmem
    cases hmem
  · intro t ht
    show listEmpty (k.WaitBlockList t) = true
    rw [hthreads t ht]
    rfl
  · exact le_max_left 0 _

/-- **The first waiter is taken off the list and made ready.** -/
theorem SignalLists.wakeFirst (h : SignalLists live k w) {x : τ} {rest : List τ}
    (hw : w o = x :: rest) :
    ∃ head blocks sched,
      listRemoveHead (waitLinks τ ο) (k.header o).WaitListHead k.waitBlock
        = .ok (some x, head, blocks)
      ∧ (blocks x).Thread = some x ∧ (blocks x).Object = some o
      ∧ listEmpty (k.WaitBlockList x) = true
      ∧ kiReadyThread x k.sched = .ok sched
      ∧ SignalLists live { k.setWaitList o head blocks with sched } (Function.update w o rest)
      ∧ (sched.tcb x).State = .READY
      ∧ (∀ i, i ≠ x → (k.sched.tcb i).State = .READY → (sched.tcb i).State = .READY)
      ∧ sched.CurrentThread = k.sched.CurrentThread := by
  obtain ⟨head, blocks, sched, hrem, hthread, hobject, hsingle, hready, hinv, hstate, hkept,
    hcurrent⟩ := h.counted.wakeFirst hw
  refine ⟨head, blocks, sched, hrem, hthread, hobject, hsingle, hready, ⟨?_, ?_⟩, hstate, hkept,
    hcurrent⟩
  · rw [← clamp_setWaitList] at hinv
    exact hinv
  · intro i hi
    have hsignal : (k.header i).SignalState ≠ 0 := by
      rw [← signal_setWaitList k o i head blocks]
      exact hi
    have hio : i ≠ o := by
      rintro rfl
      have hnil := h.idle i hsignal
      rw [hw] at hnil
      cases hnil
    rw [Function.update_of_ne hio]
    exact h.idle i hsignal

omit [DecidableEq ο] in
/-- A waiter that is made ready joins its queue. -/
theorem SignalLists.wake_dispatcher (h : SignalLists live k w) {x : τ} (hx : x ∈ w o)
    {sched : Sched τ} (hready : kiReadyThread x k.sched = .ok sched) :
    sched.dispatcher = k.sched.dispatcher.makeReady x := by
  obtain ⟨hlive, hwaiting, -⟩ := h.counted.waiter o x hx
  rcases schedStep_spec h.counted.sched (e := .ready x) ⟨hlive, hwaiting⟩ with ⟨hgives, -⟩ | ⟨s', hok, hinv⟩
  · exact absurd hgives id
  · obtain rfl := Except.ok.inj (hok.symm.trans hready)
    exact hinv.rep.eq_dispatcher.symm

end Lists

/-! ## Releasing waiters -/

section Release

variable {live : Finset τ} {k k' : Ke τ ο} {w : ο → List τ} {o : ο}

/-- **The loop that releases all waiters** makes each of them ready. -/
theorem releaseAllLoop_spec {n : Nat} (h : SignalLists live k w) (hn : (w o).length ≤ n) :
    ∃ k', releaseAllLoop o n k = .ok k'
      ∧ SignalLists live k' (Function.update w o [])
      ∧ (∀ x ∈ w o, (k'.sched.tcb x).State = .READY)
      ∧ (∀ i, (k.sched.tcb i).State = .READY → (k'.sched.tcb i).State = .READY)
      ∧ k'.sched.CurrentThread = k.sched.CurrentThread ∧ k'.control = k.control
      ∧ k'.sched.dispatcher = (w o).foldl Dispatcher.makeReady k.sched.dispatcher := by
  -- on the number of rounds: each takes the first waiter off the list
  induction n generalizing k w with
  | zero =>
    have hw : w o = [] := List.length_eq_zero_iff.mp (Nat.le_zero.mp hn)
    refine ⟨k, ?_, ?_, by rw [hw]; exact fun x hx => absurd hx List.not_mem_nil, fun _ hi => hi,
      rfl, rfl, by rw [hw]; rfl⟩
    · rw [releaseAllLoop]
      exact if_pos (h.listEmpty_iff.mpr hw)
    · rw [← hw, Function.update_eq_self]
      exact h
  | succ n ih =>
    cases hw : w o with
    | nil =>
      refine ⟨k, ?_, ?_, fun x hx => absurd hx List.not_mem_nil, fun _ hi => hi, rfl, rfl, rfl⟩
      · rw [releaseAllLoop]
        exact if_pos (h.listEmpty_iff.mpr hw)
      · rw [← hw, Function.update_eq_self]
        exact h
    | cons x rest =>
      have hempty : ¬ listEmpty (k.header o).WaitListHead = true := by
        rw [h.listEmpty_iff, hw]
        exact List.cons_ne_nil x rest
      obtain ⟨head, blocks, sched, hrem, hthread, hobject, hsingle, hready, hinv, hstate, hkept,
        hcurrent⟩ := h.wakeFirst hw
      -- the rest of the list is released by the rounds to come
      have hlen : (Function.update w o rest o).length ≤ n := by
        rw [Function.update_self]
        rw [hw] at hn
        exact Nat.le_of_succ_le_succ hn
      obtain ⟨k', hloop, hinv', hwoken, hkept', hcurrent', hcontrol, hdispatcher⟩ := ih hinv hlen
      rw [Function.update_idem] at hinv'
      rw [Function.update_self] at hwoken hdispatcher
      have hwake := h.wake_dispatcher (o := o) (by rw [hw]; exact List.mem_cons_self) hready
      refine ⟨k', ?_, hinv', ?_, ?_, hcurrent'.trans hcurrent, hcontrol,
        hdispatcher.trans (congrArg (rest.foldl Dispatcher.makeReady) hwake)⟩
      · have hobj₁ : ((k.setWaitList o head blocks).waitBlock x).Object = some o := hobject
        have hthr₁ : ((k.setWaitList o head blocks).waitBlock x).Thread = some x := hthread
        have hsingle₁ : listEmpty ((k.setWaitList o head blocks).WaitBlockList x) = true := hsingle
        have hready₁ : kiReadyThread x (k.setWaitList o head blocks).sched = .ok sched := hready
        rw [releaseAllLoop, if_neg hempty, hrem, kernel_ok_bind]
        simp only [deref_some, kernel_ok_bind, assert_of_true hobj₁, hthr₁, hsingle₁, if_true,
          true_or, hready₁]
        exact hloop
      · intro y hy
        rcases List.mem_cons.mp hy with rfl | hy
        · exact hkept' y hstate
        · exact hwoken y hy
      · intro i hi
        by_cases hix : i = x
        · rw [hix]
          exact hkept' x hstate
        · exact hkept' i (hkept i hix hi)

/-- **Releasing all waiters** of an object makes each of them ready and signals the object. -/
theorem kiDHeaderReleaseAll_spec (h : SignalLists live k w)
    (hs : (k.header o).SignalState < MAX_DISPATCH_SIGNAL_STATE) :
    ∃ k', kiDHeaderReleaseAll o k = .ok k'
      ∧ SignalLists live k' (Function.update w o [])
      ∧ (∀ x ∈ w o, (k'.sched.tcb x).State = .READY)
      ∧ k'.sched.CurrentThread = k.sched.CurrentThread ∧ k'.control = k.control
      ∧ k'.sched.dispatcher = (w o).foldl Dispatcher.makeReady k.sched.dispatcher := by
  have hwaiters : (k.header o).SignalState = 0 ∨ listEmpty (k.header o).WaitListHead = true := by
    by_cases hw : w o = []
    · exact Or.inr (h.listEmpty_iff.mpr hw)
    · exact Or.inl (h.signal_eq_zero hw)
  have hcount : (w o).length ≤ (k.header o).WaitListHead.NumberOfElements :=
    Nat.le_of_eq (h.counted.lists.each o).count.symm
  obtain ⟨k₁, hloop, hinv, hwoken, -, hcurrent, hcontrol, hdispatcher⟩ := releaseAllLoop_spec h hcount
  refine ⟨k₁.setSignal o 1, ?_, hinv.setSignal fun _ => Function.update_self o [] w,
    hwoken, hcurrent, hcontrol, hdispatcher⟩
  rw [kiDHeaderReleaseAll, assert_of_true hs, kernel_ok_bind, assert_of_true hwaiters,
    kernel_ok_bind, hloop, kernel_ok_bind]
  rfl

/-- **A release** wakes the first waiter, or adds a unit when there is none. -/
theorem kiDHeaderRelease_spec (h : SignalLists live k w)
    (hs : (k.header o).SignalState < MAX_DISPATCH_SIGNAL_STATE) :
    ∃ k', kiDHeaderRelease o k = .ok ((w o).head?, k')
      ∧ SignalLists live k' (Function.update w o (w o).tail)
      ∧ (∀ x, (w o).head? = some x → (k'.sched.tcb x).State = .READY)
      ∧ k'.sched.CurrentThread = k.sched.CurrentThread ∧ k'.control = k.control := by
  cases hw : w o with
  | nil =>
    have hempty := h.listEmpty_iff.mpr hw
    refine ⟨k.setSignal o ((k.header o).SignalState + 1), ?_, ?_, by simp, rfl, rfl⟩
    · rw [kiDHeaderRelease, assert_of_true hs, kernel_ok_bind, assert_of_true (Or.inr hempty),
        kernel_ok_bind, if_pos hempty]
      rfl
    · rw [List.tail_nil, ← hw, Function.update_eq_self]
      exact h.setSignal fun _ => hw
  | cons x rest =>
    have hzero := h.signal_eq_zero (o := o) (by rw [hw]; exact List.cons_ne_nil x rest)
    have hempty : ¬ listEmpty (k.header o).WaitListHead = true := by
      rw [h.listEmpty_iff, hw]
      exact List.cons_ne_nil x rest
    obtain ⟨head, blocks, sched, hrem, hthread, hobject, hsingle, hready, hinv, hstate, -,
      hcurrent⟩ := h.wakeFirst hw
    refine ⟨{ k.setWaitList o head blocks with sched }, ?_, hinv, ?_, hcurrent, rfl⟩
    · have hobj₁ : ((k.setWaitList o head blocks).waitBlock x).Object = some o := hobject
      have hthr₁ : ((k.setWaitList o head blocks).waitBlock x).Thread = some x := hthread
      have hsingle₁ : listEmpty ((k.setWaitList o head blocks).WaitBlockList x) = true := hsingle
      have hready₁ : kiReadyThread x (k.setWaitList o head blocks).sched = .ok sched := hready
      rw [kiDHeaderRelease, assert_of_true hs, kernel_ok_bind, assert_of_true (Or.inl hzero),
        kernel_ok_bind, if_neg hempty, hrem, kernel_ok_bind]
      simp only [deref_some, kernel_ok_bind, assert_of_true hobj₁, hthr₁, hsingle₁, if_true,
        hready₁]
      rfl
    · intro y hy
      obtain rfl : x = y := Option.some.inj hy
      exact hstate

/-- **A wait that blocks** puts the current thread at the end of the wait list. -/
theorem kiDHeaderAcquire_blocks (h : SignalLists live k w) (hs : (k.header o).SignalState = 0)
    {outcome : WaitOutcome} (hrun : kiDHeaderAcquire o k = .ok (outcome, k')) :
    SignalLists live k' (Function.update w o (w o ++ [k.sched.CurrentThread])) := by
  have hclamp : (k.clamp.header o).SignalState = 0 := by
    show max 0 (k.header o).SignalState = 0
    rw [hs]
    rfl
  have hsame : SameSignals k k' := by
    rcases kiDHeaderAcquire_signal hrun with ⟨-, -, hsame⟩ | ⟨-, hpos, -⟩
    · exact hsame
    · omega
  -- the raised state goes through the same stores
  have hraised : kiDHeaderAcquire o k.clamp = .ok (outcome, k'.clamp) := by
    rw [kiDHeaderAcquire, if_pos hs] at hrun
    obtain ⟨⟨head, blocks⟩, hinsert, hrun⟩ := kernel_bind_eq_ok.mp hrun
    obtain ⟨sched, hblock, hrun⟩ := kernel_bind_eq_ok.mp hrun
    obtain ⟨rfl, rfl⟩ := Prod.mk.inj (Except.ok.inj hrun)
    have hinsert' : listInsertTail (waitLinks τ ο) ((kiInitWaitBlock o k.clamp).header o).WaitListHead
        k.clamp.sched.CurrentThread (kiInitWaitBlock o k.clamp).waitBlock = .ok (head, blocks) :=
      hinsert
    have hlist := clamp_setWaitList (kiInitWaitBlock o k) o head blocks
    have hblock' : kiBlockThread (((kiInitWaitBlock o k.clamp).setWaitList o head blocks).setControl
        k.clamp.sched.CurrentThread (.inWait o)).sched = .ok sched := hblock
    rw [kiDHeaderAcquire, if_pos hclamp]
    simp only [hinsert', kernel_ok_bind, hblock']
    refine congrArg (fun x : Ke τ ο => (.ok (WaitOutcome.blocked, x) : Kernel _)) ?_
    refine Eq.trans ?_ (congrArg (fun x : Ke τ ο => { x with
      sched := sched
      control := Function.update k.control k.sched.CurrentThread (.inWait o) }) hlist.symm)
    rfl
  rcases kiDHeaderAcquire_block_spec h.counted hclamp with ⟨err, herr⟩ | ⟨k₁, hok, hinv, -⟩
  · rw [hraised] at herr
    cases herr
  · rw [hraised] at hok
    obtain ⟨-, rfl⟩ := Prod.mk.inj (Except.ok.inj hok)
    refine ⟨hinv, fun i hi => ?_⟩
    rw [hsame.signal i] at hi
    have hio : i ≠ o := by
      rintro rfl
      exact hi hs
    rw [Function.update_of_ne hio]
    exact h.idle i hi

end Release

/-! ## What a step does to the wait lists -/

/-- The threads that wait, for each object. -/
def waitQueues (k : Ke τ ο) (o : ο) : List τ := waitQueue o k

/-- **What a step does to the wait lists**: who joins one, and who is woken. -/
def SignalEvent.Moves (k k' : Ke τ ο) (w w' : ο → List τ) : SignalEvent τ ο → Prop
  | .sched _ | .check _ | .resetEvent _ | .clearEvent _ => w' = w
  | .wait o => ((k.header o).SignalState = 0
      ∧ w' = Function.update w o (w o ++ [k.sched.CurrentThread]))
    ∨ (0 < (k.header o).SignalState ∧ w' = w)
  | .release o => w' = Function.update w o (w o).tail
    ∧ ∀ x, (w o).head? = some x → (k'.sched.tcb x).State = .READY
  | .setEvent o => (((k.header o).type = .EventNotificationObject ∧ w' = Function.update w o []
        ∧ ∀ x ∈ w o, (k'.sched.tcb x).State = .READY)
      ∨ ((k.header o).type = .EventSynchronizationObject ∧ w' = Function.update w o (w o).tail
        ∧ ∀ x, (w o).head? = some x → (k'.sched.tcb x).State = .READY))
  | .releaseNotification o => w' = Function.update w o []
    ∧ ∀ x ∈ w o, (k'.sched.tcb x).State = .READY

section Moves

variable {live : Finset τ} {k k' : Ke τ ο} {w w' : ο → List τ} {o : ο} {setup : ο → SignalSetup}
  {m m' : SignalMachine τ ο} {e : SignalEvent τ ο}
  {tr : List (SignalEvent τ ο × SignalMachine τ ο)}

/-- A release that returns. -/
theorem kiDHeaderRelease_moves (h : SignalLists live k w) {handed : Option τ}
    (hrun : kiDHeaderRelease o k = .ok (handed, k')) :
    SignalLists live k' (Function.update w o (w o).tail)
      ∧ (∀ x, (w o).head? = some x → (k'.sched.tcb x).State = .READY)
      ∧ k'.sched.CurrentThread = k.sched.CurrentThread ∧ k'.control = k.control := by
  have hlt : (k.header o).SignalState < MAX_DISPATCH_SIGNAL_STATE := by
    obtain ⟨_, hlt, -⟩ := kernel_bind_eq_ok.mp hrun
    exact assert_eq_ok.mp hlt
  obtain ⟨k₁, hok, hspec⟩ := kiDHeaderRelease_spec h hlt
  rw [hrun] at hok
  obtain ⟨-, rfl⟩ := Prod.mk.inj (Except.ok.inj hok)
  exact hspec

/-- A release of all waiters that returns. -/
theorem kiDHeaderReleaseAll_moves (h : SignalLists live k w)
    (hrun : kiDHeaderReleaseAll o k = .ok k') :
    SignalLists live k' (Function.update w o [])
      ∧ (∀ x ∈ w o, (k'.sched.tcb x).State = .READY)
      ∧ k'.sched.CurrentThread = k.sched.CurrentThread ∧ k'.control = k.control
      ∧ k'.sched.dispatcher = (w o).foldl Dispatcher.makeReady k.sched.dispatcher := by
  have hlt : (k.header o).SignalState < MAX_DISPATCH_SIGNAL_STATE := by
    obtain ⟨_, hlt, -⟩ := kernel_bind_eq_ok.mp hrun
    exact assert_eq_ok.mp hlt
  obtain ⟨k₁, hok, hspec⟩ := kiDHeaderReleaseAll_spec h hlt
  obtain rfl : k₁ = k' := Except.ok.inj (hok.symm.trans hrun)
  exact hspec

/-- A wait joins the wait list or leaves it alone. -/
theorem keWaitForSingleObject_moves (h : SignalLists live k w) {outcome : WaitOutcome}
    (hrun : keWaitForSingleObject o k = .ok (outcome, k')) :
    ∃ w', SignalLists live k' w' ∧ (SignalEvent.wait o : SignalEvent τ ο).Moves k k' w w' := by
  by_cases htype : (k.header o).type = .MutantObject
  · obtain ⟨-, hpos, -, rfl⟩ := (keWaitForSingleObject_mutant_eq_ok htype).mp hrun
    have htake := h.take hpos
    exact ⟨w, htake.setOwner _, Or.inr ⟨hpos, rfl⟩⟩
  · have hacquire := keWaitForSingleObject_acquire htype hrun
    rcases kiDHeaderAcquire_signal hacquire with ⟨-, hzero, -⟩ | ⟨-, hpos, -⟩
    · exact ⟨_, kiDHeaderAcquire_blocks h hzero hacquire, Or.inl ⟨hzero, rfl⟩⟩
    · rw [kiDHeaderAcquire_of_pos hpos] at hacquire
      obtain ⟨-, rfl⟩ := Prod.mk.inj (Except.ok.inj hacquire)
      exact ⟨w, h.take hpos, Or.inr ⟨hpos, rfl⟩⟩

/-- Setting an event wakes all waiters or the first. -/
theorem keSetEvent_moves (h : SignalLists live k w) {state : Int}
    (hrun : keSetEvent o k = .ok (state, k')) :
    ∃ w', SignalLists live k' w' ∧ (SignalEvent.setEvent o : SignalEvent τ ο).Moves k k' w w' := by
  obtain ⟨_, hevent, hrun⟩ := kernel_bind_eq_ok.mp hrun
  have hkind := assert_eq_ok.mp hevent
  split at hrun
  · rename_i hnotification
    obtain ⟨k₁, hall, hrun⟩ := kernel_bind_eq_ok.mp hrun
    obtain ⟨rfl, rfl⟩ := Prod.mk.inj (Except.ok.inj hrun)
    obtain ⟨hinv, hwoken, -⟩ := kiDHeaderReleaseAll_moves h hall
    exact ⟨_, hinv.clear, Or.inl ⟨hnotification, rfl, hwoken⟩⟩
  · rename_i hnotification
    obtain ⟨⟨handed, k₁⟩, hrelease, hrun⟩ := kernel_bind_eq_ok.mp hrun
    obtain ⟨rfl, rfl⟩ := Prod.mk.inj (Except.ok.inj hrun)
    obtain ⟨hinv, hready, -⟩ := kiDHeaderRelease_moves h hrelease
    exact ⟨_, hinv.clear, Or.inr ⟨hkind.resolve_left hnotification, rfl, hready⟩⟩

/-- A step of the scheduler is one that no object takes part in. All other steps keep the invariant
whatever they are called for. -/
def SignalEvent.Scheduled (m : SignalMachine τ ο) : SignalEvent τ ο → Prop
  | .sched e => e.Enabled ⟨m.ke.sched, m.live⟩ ∧ e.Background
  | _ => True

omit [DecidableEq ο] in
/-- The steps that threads take are of this kind. -/
theorem SignalEvent.Enabled.scheduled (hen : e.Enabled setup m) : e.Scheduled m := by
  cases e with
  | sched e => exact hen
  | wait _ | check _ | release _ | setEvent _ | resetEvent _ | clearEvent _
  | releaseNotification _ => trivial

/-- **Every step keeps the invariant of the wait lists.** -/
theorem SignalEvent.runs_lists (h : SignalLists m.live m.ke w) (hen : e.Scheduled m)
    (hruns : e.runs m = .ok k) :
    ∃ w', SignalLists (e.liveAfter m.live) k w' ∧ e.Moves m.ke k w w' := by
  cases e with
  | sched e =>
    obtain ⟨he, hb⟩ := hen
    obtain ⟨sched, hstep, hruns⟩ := kernel_bind_eq_ok.mp hruns
    cases hruns
    exact ⟨w, h.background he hb hstep, rfl⟩
  | wait o =>
    obtain ⟨⟨outcome, k₁⟩, hwait, hruns⟩ := kernel_bind_eq_ok.mp hruns
    cases hruns
    exact keWaitForSingleObject_moves h hwait
  | check o =>
    obtain ⟨_, -, hruns⟩ := kernel_bind_eq_ok.mp hruns
    cases hruns
    exact ⟨w, h, rfl⟩
  | release o =>
    obtain ⟨⟨handed, k₁⟩, hrelease, hruns⟩ := kernel_bind_eq_ok.mp hruns
    cases hruns
    obtain ⟨hinv, hready, -⟩ := kiDHeaderRelease_moves h hrelease
    exact ⟨_, hinv, rfl, hready⟩
  | setEvent o =>
    obtain ⟨⟨state, k₁⟩, hset, hruns⟩ := kernel_bind_eq_ok.mp hruns
    cases hruns
    exact keSetEvent_moves h hset
  | resetEvent o =>
    obtain ⟨⟨state, k₁⟩, hreset, hruns⟩ := kernel_bind_eq_ok.mp hruns
    cases hruns
    obtain ⟨_, -, hreset⟩ := kernel_bind_eq_ok.mp hreset
    obtain ⟨-, rfl⟩ := Prod.mk.inj (Except.ok.inj hreset)
    exact ⟨w, h.clear, rfl⟩
  | clearEvent o =>
    obtain ⟨_, -, hruns⟩ := kernel_bind_eq_ok.mp hruns
    cases hruns
    exact ⟨w, h.clear, rfl⟩
  | releaseNotification o =>
    obtain ⟨hinv, hwoken, -⟩ := kiDHeaderReleaseAll_moves h hruns
    exact ⟨_, hinv, rfl, hwoken⟩

omit [DecidableEq τ] in
/-- Moves are about threads only, not about what they are in the middle of. -/
theorem SignalEvent.Moves.congr {k'' : Ke τ ο} (h : e.Moves k k' w w')
    (hsched : k''.sched = k'.sched) : e.Moves k k'' w w' := by
  cases e with
  | sched _ | check _ | resetEvent _ | clearEvent _ | wait _ => exact h
  | release _ | setEvent _ | releaseNotification _ =>
    unfold SignalEvent.Moves at h ⊢
    rw [hsched]
    exact h

/-- **A whole step** keeps the invariant, with the threads that wait now. -/
theorem SignalEvent.run_lists (h : SignalLists m.live m.ke (waitQueues m.ke))
    (hen : e.Scheduled m) (hrun : e.run m = .ok m') :
    SignalLists m'.live m'.ke (waitQueues m'.ke)
      ∧ e.Moves m.ke m'.ke (waitQueues m.ke) (waitQueues m'.ke) := by
  obtain ⟨k, hruns, hrun⟩ := kernel_bind_eq_ok.mp hrun
  cases hrun
  obtain ⟨w', hlists, hmoves⟩ := SignalEvent.runs_lists h hen hruns
  have hresume := hlists.resume
  have hw : waitQueues (keResume k) = w' := hresume.queues_eq
  show SignalLists (e.liveAfter m.live) (keResume k) (waitQueues (keResume k))
    ∧ e.Moves m.ke (keResume k) (waitQueues m.ke) (waitQueues (keResume k))
  rw [hw]
  exact ⟨hresume, hmoves.congr (keResume_frame k).1⟩

omit [DecidableEq τ] in
/-- What the code that sets an object up leaves in its header. -/
theorem SignalSetup.done_header {setup : SignalSetup} (hd : setup.Done o k) :
    k.header o = ⟨listInit, setup.type, setup.signal⟩ := by
  obtain ⟨k₁, k₂, hrun, hheader, -⟩ := hd
  rw [hheader]
  cases setup with
  | semaphore count limit =>
    obtain ⟨_, -, hrun⟩ := kernel_bind_eq_ok.mp hrun
    cases hrun
    simp [keInitDispatcherHeader, Ke.setHeader, SignalSetup.type, SignalSetup.signal]
  | event type state =>
    cases hrun
    simp [keInitializeEvent, Ke.setHeader, SignalSetup.type, SignalSetup.signal]
  | process | thread type signalState =>
    cases hrun
    simp [keInitDispatcherHeader, Ke.setHeader, SignalSetup.type, SignalSetup.signal]

/-- Objects that have been set up have empty wait lists. -/
theorem signalLists_init (h : (signalSystem setup).init m) :
    SignalLists m.live m.ke fun _ => [] := by
  obtain ⟨⟨start, tr, hsched⟩, hthreads, -, hdone⟩ := h
  apply SignalLists.start hsched
  · exact fun t ht => (hthreads t ht).2
  · intro o
    rw [SignalSetup.done_header (hdone o)]

/-- Objects keep their types. -/
theorem SignalEvent.run_type (hrun : e.run m = .ok m') (o : ο) :
    (m'.ke.header o).type = (m.ke.header o).type := by
  have heffect := SignalEvent.run_effect hrun
  cases e with
  | sched _ | check _ | setEvent _ | resetEvent _ | clearEvent _ | releaseNotification _ =>
    exact heffect.type o
  | wait i | release i =>
    rcases heffect with ⟨-, hs⟩ | ⟨-, hs⟩
    · exact hs.type o
    · exact hs.type o

/-- **The wait lists in every run**: the invariant holds with the threads that `LIST_FOREACH` visits,
and every object has the type of its set-up. -/
theorem signalSystem_invariant (h : (signalSystem setup).Run tr m) :
    SignalLists m.live m.ke (waitQueues m.ke) ∧ ∀ o, (m.ke.header o).type = (setup o).type := by
  refine h.invariant (I := fun _ m => SignalLists m.live m.ke (waitQueues m.ke)
    ∧ ∀ o, (m.ke.header o).type = (setup o).type) ?_ ?_
  · intro m hinit
    have hlists := signalLists_init hinit
    have hw : waitQueues m.ke = fun _ => [] := hlists.queues_eq
    refine ⟨by rw [hw]; exact hlists, fun o => ?_⟩
    rw [SignalSetup.done_header (hinit.2.2.2 o)]
  · rintro tr m ⟨e, m₀⟩ m' - ⟨hlists, htype⟩ ⟨hm, hen, hrun⟩
    obtain rfl : m₀ = m := hm
    exact ⟨(SignalEvent.run_lists hlists hen.scheduled hrun).1,
      fun o => (SignalEvent.run_type hrun o).trans (htype o)⟩

/-! ## Other objects -/

/-- The object that a step changes. -/
def SignalEvent.object : SignalEvent τ ο → Option ο
  | .sched _ | .check _ => none
  | .wait o | .release o | .setEvent o | .resetEvent o | .clearEvent o | .releaseNotification o =>
    some o

/-- **A step leaves the other objects alone.** -/
theorem SignalEvent.run_frame (h : SignalLists m.live m.ke (waitQueues m.ke))
    (hen : e.Enabled setup m) (hrun : e.run m = .ok m') (ho : e.object ≠ some o) :
    (m'.ke.header o).SignalState = (m.ke.header o).SignalState
      ∧ waitQueue o m'.ke = waitQueue o m.ke := by
  have heffect := SignalEvent.run_effect hrun
  obtain ⟨-, hmoves⟩ := SignalEvent.run_lists h hen.scheduled hrun
  have hqueue : ∀ {i : ο} {q : List τ}, waitQueues m'.ke = Function.update (waitQueues m.ke) i q →
      o ≠ i → waitQueue o m'.ke = waitQueue o m.ke := by
    intro i q hw hi
    show waitQueues m'.ke o = _
    rw [hw, Function.update_of_ne hi]
    rfl
  have hne : ∀ {i : ο}, some i ≠ some o → o ≠ i := by
    rintro i hi rfl
    exact hi rfl
  cases e with
  | sched e | check i => exact ⟨heffect.signal o, congrFun hmoves o⟩
  | wait i =>
    have hi := hne ho
    constructor
    · rcases heffect with ⟨-, hs⟩ | ⟨-, hs⟩
      · exact hs.signal o
      · exact (hs.signal o).trans (if_neg hi)
    · rcases hmoves with ⟨-, hw⟩ | ⟨-, hw⟩
      · exact hqueue hw hi
      · exact congrFun hw o
  | release i =>
    have hi := hne ho
    refine ⟨?_, hqueue hmoves.1 hi⟩
    rcases heffect with ⟨-, hs⟩ | ⟨-, hs⟩
    · exact hs.signal o
    · exact (hs.signal o).trans (if_neg hi)
  | setEvent i =>
    have hi := hne ho
    refine ⟨(heffect.signal o).trans (if_neg hi), ?_⟩
    rcases hmoves with ⟨-, hw, -⟩ | ⟨-, hw, -⟩
    · exact hqueue hw hi
    · exact hqueue hw hi
  | resetEvent i | clearEvent i =>
    exact ⟨(heffect.signal o).trans (if_neg (hne ho)), congrFun hmoves o⟩
  | releaseNotification i =>
    have hi := hne ho
    exact ⟨(heffect.signal o).trans (if_neg hi), hqueue hmoves.1 hi⟩

/-- **Only semaphores are released.** -/
theorem signalSystem_releasing (h : (signalSystem setup).Run tr m) {t : τ} {old : Int}
    (ht : m.releasing t = some (o, old)) : (setup o).isSemaphore = true := by
  have hall : ∀ t x, m.releasing t = some x → (setup x.1).isSemaphore = true := by
    refine h.invariant (I := fun _ m => ∀ t x, m.releasing t = some x →
      (setup x.1).isSemaphore = true) ?_ ?_
    · intro m hinit t x ht
      rw [hinit.2.2.1 t] at ht
      cases ht
    · rintro tr m ⟨e, m₀⟩ m' - hinv ⟨hm, hen, hrun⟩ t x ht
      obtain rfl : m₀ = m := hm
      rw [(SignalEvent.run_parts hrun).2] at ht
      cases e with
      | sched e => exact hinv t x (SignalEvent.newReleasing_some ht)
      | wait _ | setEvent _ | resetEvent _ | clearEvent _ | releaseNotification _ =>
        exact hinv t x ht
      | check i =>
        by_cases htc : t = m₀.current
        · rw [htc, SignalEvent.releasingAfter, Function.update_self] at ht
          obtain rfl := Option.some.inj ht
          exact hen.2.2
        · rw [SignalEvent.releasingAfter, Function.update_of_ne htc] at ht
          exact hinv t x ht
      | release i =>
        by_cases htc : t = m₀.current
        · rw [htc, SignalEvent.releasingAfter, Function.update_self] at ht
          cases ht
        · rw [SignalEvent.releasingAfter, Function.update_of_ne htc] at ht
          exact hinv t x ht
  exact hall t _ ht

end Moves

end KaushOS
